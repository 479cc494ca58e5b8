import GateAccess.CBytes
import GateAccess.Traces
import GateAccess.Climbs
import GateAccess.AccessCore
import GateAccess.WrapClock
import GateAccess.SyncLogic
import GateAccess.GateCtrl
import GateAccess.GateRun
import GateAccess.EntryHistory
import GateAccess.DoorOpening
import GateAccess.GuestTable
import GateAccess.AttemptBound
import GateAccess.KeyedStore
import GateAccess.TextScan
import GateAccess.WireFields
import GateAccess.SyncParse
import GateAccess.LittleEndian
import GateAccess.PersistCodes
import GateAccess.PersistStore
import GateAccess.DevConsole
import GateAccess.SyncClient
import GateAccess.TgProto
import GateAccess.TgPoll
import GateAccess.TgClient
import GateAccess.Device
import GateAccess.TransientIds
import GateAccess.SlotWrites
import GateAccess.ChipWrites
import GateAccess.SetReplace
import GateAccess.Generations
import GateAccess.CourierOnce
import GateAccess.PollPacing
import GateAccess.PollExact
import GateAccess.Revocation
import GateAccess.Authentic
import GateAccess.StoredCodes
import GateAccess.SyncInstall
import GateAccess.Decimals
import GateAccess.HexText
import GateAccess.MakeTgLine
import GateAccess.CourierExact
import GateAccess.SyncFormat
import GateAccess.MakeSyncFile
import GateAccess.ProvLogic
import GateAccess.WifiProv
import GateAccess.HoldToOpen
import GateAccess.PowerCuts
import GateAccess.SlotAtomic
import GateAccess.FirstMax
import GateAccess.PersistRing
import GateAccess.RingKeeps
import GateAccess.AttemptPersist
import GateAccess.LockLogic
import GateAccess.CoilProtected
import GateAccess.TransientFrame
import GateAccess.TableOps
import GateAccess.RevokedId
import GateAccess.Validators
import GateAccess.OledFb
import GateAccess.OledScreens
import GateAccess.KeysHidden
import GateAccess.PlaintextWiped
import GateAccess.BorderLoop
import GateAccess.StatusLed
import GateAccess.Schedules
import GateAccess.SyncInterleaved
import GateAccess.RtcDs3231
import GateAccess.CodeGranted
import GateAccess.ClockTrust
import GateAccess.SaveLoad
import GateAccess.CompleteDecision
import GateAccess.RequestRule
import GateAccess.HeldReopen
import GateAccess.LoginBound
import GateAccess.WifiCreds
import GateAccess.UrlEncoded
import GateAccess.ProvForm
import GateAccess.WifiForm
import GateAccess.NetLink
import GateAccess.Backoff
import GateAccess.TryCredentials
import GateAccess.LockDriver
import GateAccess.WireNumbers
import GateAccess.ParserOutput
import GateAccess.ErasedSlot
import GateAccess.FormRoundTrip
import GateAccess.FormText
import GateAccess.SplitForm
import GateAccess.DarkPanel
import GateAccess.AbandonedEntry
import GateAccess.KeypadLogic
import GateAccess.KeypadEvents
import GateAccess.HtmlLexer
import GateAccess.WifiPage
import GateAccess.PageMarkup
import GateAccess.CourierPacing
import GateAccess.Ssd1306
import GateAccess.Calendar
import GateAccess.CivilDays
import GateAccess.RtcTime
import GateAccess.ByteReader
import GateAccess.DnsMessage
import GateAccess.ProvDns
import GateAccess.LinearCrc
import GateAccess.RecordCrc
import GateAccess.PortalSession
import GateAccess.ProvHttp
import GateAccess.PortalAccess
import GateAccess.PortalActs
import GateAccess.SessionEnds
import GateAccess.BodyBuffer
import GateAccess.HttpFetch
import GateAccess.WireDevice
import GateAccess.CourierRequests
import GateAccess.CredCheck
import GateAccess.FitCredentials
import GateAccess.NetRadio
import GateAccess.RadioWants
import GateAccess.RadioSettles
import GateAccess.PortalOnAir
import GateAccess.PagedMemory
import GateAccess.EepromChip
import GateAccess.ChipRefines
import GateAccess.BoundedQueue
import GateAccess.KeypadTask
import GateAccess.GateApp
import GateAccess.CoilNeedsCode
import GateAccess.DeviceLife
import GateAccess.GuessesOverLife
import GateAccess.PanelLoop
import GateAccess.TwoRuns
import GateAccess.GateFront
import GateAccess.ProvNvs
import GateAccess.StoredNetwork
