import GateAccess.Decimals
import GateAccess.HttpFetch
import GateAccess.ProvForm
import GateAccess.SplitForm

namespace GateAccess

def credAdminMinLen : Nat := 12
def credApMinLen : Nat := 8
def credApMaxLen : Nat := 63
def credSaltMinLen : Nat := 16
def credKeyHexLen : Nat := 64
def credTgIdMinDigits : Nat := 5
def credTgIdMaxDigits : Nat := 16
def credTgSecretMinLen : Nat := 30
def credTgSecretMaxLen : Nat := 64

inductive CredResult
  | ok | missing | tooShort | tooLong | placeholder | weak | notHex | notRandom | badShape
  deriving DecidableEq

def placeholders : List (List UInt8) :=
  [ascii "admin123", ascii "changeme", ascii "CHANGE_ME", ascii "please-change-me",
    ascii "portao-01-placeholder",
    ascii "0000000000000000000000000000000000000000000000000000000000000000",
    ascii "DEV_SALT", ascii "dev-salt", ascii "https://example.com/gate.txt",
    ascii "000000000:CHANGE_ME_CHANGE_ME_CHANGE_ME_CHANG"]

def weakList : List (List UInt8) :=
  [ascii "password", ascii "senha123", ascii "12345678", ascii "123456789", ascii "qwerty123",
    ascii "admin", ascii "administra", ascii "portao", ascii "portao123", ascii "abc12345"]

def inList (s : List UInt8) : List (List UInt8) → Bool
  | [] => false
  | word :: list => if s = word then true else inList s list

/-- A `const char *`: nothing for NULL, otherwise the text up to its terminator. -/
abbrev CText := Option (List UInt8)

def lenOf (s : CText) : Nat :=
  match s with
  | none => 0
  | some s => s.length

/-- The loop of `all_same_char`, from the second character on. -/
def sameAs (first : UInt8) : List UInt8 → Bool
  | [] => true
  | c :: s => if c ≠ first then false else sameAs first s

def allSameChar : List UInt8 → Bool
  | [] => true
  | first :: s => sameAs first s

def commonChecks (s : CText) : CredResult :=
  match s with
  | none => .missing
  | some s =>
    if s.length = 0 then .missing
    else if inList s placeholders then .placeholder
    else if inList s weakList then .weak
    else .ok

/-- The checks a secret passes before its own: what the lists say, then `own` on the text. -/
def credCheck (s : CText) (own : List UInt8 → CredResult) : CredResult :=
  if commonChecks s ≠ .ok then commonChecks s
  else
    match s with
    | none => .missing
    | some s => own s

def credCheckAdminPassword (password : CText) : CredResult :=
  credCheck password fun s =>
    if s.length < credAdminMinLen then .tooShort
    else if allSameChar s then .notRandom
    else .ok

def credCheckApPassword (password : CText) : CredResult :=
  credCheck password fun s =>
    if s.length < credApMinLen then .tooShort
    else if s.length > credApMaxLen then .tooLong
    else if allSameChar s then .notRandom
    else .ok

/-- The loop of `cred_check_delivery_key`; an upper case digit ends it. -/
def hexLoop : List UInt8 → Bool
  | [] => true
  | c :: s => if (48 ≤ c ∧ c ≤ 57) ∨ (97 ≤ c ∧ c ≤ 102) then hexLoop s else false

def credCheckDeliveryKey (hex : CText) : CredResult :=
  credCheck hex fun s =>
    if s.length ≠ credKeyHexLen then .notHex
    else if !hexLoop s then .notHex
    else if allSameChar s then .notRandom
    else .ok

def credCheckDeviceSalt (salt : CText) : CredResult :=
  credCheck salt fun s =>
    if s.length < credSaltMinLen then .tooShort
    else if allSameChar s then .notRandom
    else .ok

/-- `strchr`: what stands before the first such character, and what follows it. -/
def strchr (c : UInt8) : List UInt8 → Option (List UInt8 × List UInt8)
  | [] => none
  | d :: s => if d = c then some ([], s) else (strchr c s).map fun r => (d :: r.1, r.2)

def digitLoop : List UInt8 → Bool
  | [] => true
  | c :: s => if c < 48 ∨ c > 57 then false else digitLoop s

def secretLoop : List UInt8 → Bool
  | [] => true
  | c :: s =>
    if (65 ≤ c ∧ c ≤ 90) ∨ (97 ≤ c ∧ c ≤ 122) ∨ (48 ≤ c ∧ c ≤ 57) ∨ c = 95 ∨ c = 45 then secretLoop s
    else false

def credCheckBotToken (token : CText) : CredResult :=
  credCheck token fun s =>
    match strchr 58 s with
    | none => .badShape
    | some (id, secret) =>
      if id = [] ∨ (strchr 58 secret).isSome then .badShape
      else if id.length < credTgIdMinDigits ∨ id.length > credTgIdMaxDigits then .badShape
      else if !digitLoop id then .badShape
      else if secret.length < credTgSecretMinLen then .tooShort
      else if secret.length > credTgSecretMaxLen then .tooLong
      else if !secretLoop secret then .badShape
      else if allSameChar secret then .notRandom
      else .ok

def credCheckIdentity (gateId url : CText) : CredResult :=
  match gateId, url with
  | some gateId, some url =>
    if gateId.length = 0 ∨ url.length = 0 then .missing
    else if inList gateId placeholders || inList url placeholders then .placeholder
    else if !strncmpEq 8 url (ascii "https://") then .weak
    else .ok
  | _, _ => .missing

def credResultText : CredResult → String
  | .ok => "ok"
  | .missing => "not set"
  | .tooShort => "too short"
  | .tooLong => "too long"
  | .placeholder => "still the example value from the repository"
  | .weak => "on every password list ever compiled"
  | .notHex => "not 64 lowercase hex characters"
  | .notRandom => "all one character"
  | .badShape => "not the shape this credential has to be"

/-- What `admin_credentials.h` defines. -/
structure Credentials where
  adminPassword : CText
  provApPassword : CText
  syncDeliveryKey : CText
  gateDeviceSalt : CText
  syncGateId : CText
  syncUrl : CText
  tgBotToken : CText

inductive LogLevel
  | error | warn | info
  deriving DecidableEq

structure LogLine where
  level : LogLevel
  text : String
  deriving DecidableEq

/-- Whether the check passed, and the line logged when it did not. -/
def report (what : String) (r : CredResult) : Bool × List LogLine :=
  if r = .ok then (true, [])
  else (false, [⟨.error, "  " ++ what.rightpad 18 ++ " " ++ credResultText r⟩])

def fitLine : LogLine := ⟨.info, "credentials look fit for a door"⟩

def devBanner : List LogLine :=
  [⟨.warn, "**************************************************************"⟩,
    ⟨.warn, "* The credentials above are not fit for a deployed gate.      *"⟩,
    ⟨.warn, "* A development build runs anyway. A production build will    *"⟩,
    ⟨.warn, "* refuse to start until they are fixed.                       *"⟩,
    ⟨.warn, "**************************************************************"⟩]

def haltBanner : List LogLine :=
  [⟨.error, "**************************************************************"⟩,
    ⟨.error, "* REFUSING TO START: the credentials above are not fit for a  *"⟩,
    ⟨.error, "* deployed gate. Edit main/admin_credentials.h and reflash.   *"⟩,
    ⟨.error, "**************************************************************"⟩]

def guardReports (c : Credentials) : List (Bool × List LogLine) :=
  [report "admin password" (credCheckAdminPassword c.adminPassword),
    report "AP passphrase" (credCheckApPassword c.provApPassword),
    report "delivery key" (credCheckDeliveryKey c.syncDeliveryKey),
    report "device salt" (credCheckDeviceSalt c.gateDeviceSalt),
    report "identity" (credCheckIdentity c.syncGateId c.syncUrl)]

def haltedLine : LogLine := ⟨.error, "halted: credentials unfit for deployment"⟩

/-- `gate_guard_check`: what it has returned, none while it is in its last loop, and what it has logged,
once this many rounds of that loop could have passed. -/
def gateGuardCheck (devConsole : Bool) (c : Credentials) (rounds : Nat) :
    Option Bool × List LogLine :=
  let lines := (guardReports c).flatMap Prod.snd
  if (guardReports c).all Prod.fst then (some true, lines ++ [fitLine])
  else if devConsole then (some false, lines ++ devBanner)
  else (none, lines ++ haltBanner ++ List.replicate rounds haltedLine)

/-- `hex_to_bytes` of the two clients, which takes upper case as well; none for false. -/
def clientHexToBytes (outLen : Nat) (hex : List UInt8) : Option (List UInt8) :=
  match outLen with
  | 0 => some []
  | n + 1 =>
    match hexPair (hex.headD 0) (hex.tail.headD 0), clientHexToBytes n (hex.drop 2) with
    | some b, some bs => some (b :: bs)
    | _, _ => none

/-- The delivery key as either client takes it up at boot; without one the channel stays off. -/
def clientKey (deliveryKey : CText) : Option (List UInt8) :=
  match deliveryKey with
  | none => none
  | some key => if key.length ≠ 64 then none else clientHexToBytes 32 key

/-- What `tg_client_init` makes of `s_enabled`. -/
def tgClientSetUp (c : Credentials) : Bool :=
  if credCheckBotToken c.tgBotToken ≠ .ok then false else (clientKey c.syncDeliveryKey).isSome

def tgPollIsFatal (ctx : TgPollCtx) : Bool := ctx.fatal

def tgClientEnabled (c : Credentials) (poll : TgPollCtx) : Bool :=
  tgClientSetUp c && !tgPollIsFatal poll

/-- The argument check of `net_link_ap_up`. -/
def apPassphraseTaken (password : CText) : Bool :=
  !(password.isNone || lenOf password < 8 || lenOf password > 63)

end GateAccess
