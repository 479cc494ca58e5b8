import GateAccess.ByteReader

namespace GateAccess

structure DnsLabel where
  bytes : List UInt8
  pos : 1 ≤ bytes.length
  le : bytes.length ≤ 63
  deriving DecidableEq

/-- A domain name as it stands in a message: its labels, and the place of the others where it
ends in a compression pointer. -/
structure DnsName where
  labels : List DnsLabel
  pointer : Option Nat
  deriving DecidableEq

structure DnsQuestion where
  name : DnsName
  qtype : Nat
  qclass : Nat
  deriving DecidableEq

structure DnsRecord where
  name : DnsName
  rtype : Nat
  rclass : Nat
  ttl : Nat
  rdata : List UInt8
  deriving DecidableEq

structure DnsMessage where
  id : Nat
  flagsHigh : UInt8
  flagsLow : UInt8
  questions : List DnsQuestion
  answers : List DnsRecord
  authority : List DnsRecord
  additional : List DnsRecord
  deriving DecidableEq

def DnsMessage.isResponse (m : DnsMessage) : Bool := m.flagsHigh &&& 0x80 ≠ 0

/-- The bytes before the first question. -/
def dnsHeaderLength : Nat := 12

def DnsName.wireLength (name : DnsName) : Nat :=
  name.labels.foldr (fun label n => label.bytes.length + 1 + n) (if name.pointer.isSome then 2 else 1)

open ByteReader

def readLabel (len : UInt8) (h : 0 < len ∧ len < 64) : ByteReader DnsLabel := do
  let text ← bytes len.toNat
  pure
    { bytes := text.toList
      pos := by
        rw [text.toList_length]
        exact UInt8.lt_iff_toNat_lt.mp h.1
      le := by
        rw [text.toList_length]
        exact Nat.le_of_lt_succ (UInt8.lt_iff_toNat_lt.mp h.2) }

/-- A name of fewer than the given number of labels. -/
def readLabels : Nat → ByteReader DnsName
  | 0 => fail
  | n + 1 => do
    let len ← byte
    if len = 0 then pure ⟨[], none⟩
    else if h : 0 < len ∧ len < 64 then do
      let label ← readLabel len h
      let name ← readLabels n
      pure { name with labels := label :: name.labels }
    else if 192 ≤ len then do
      let low ← byte
      pure ⟨[], some (ofBytes (len - 192) low)⟩
    else fail

def readName : ByteReader DnsName := do
  let name ← readLabels 128
  if name.wireLength ≤ 255 then pure name else fail

/-- A question spells its name out: there is nothing before it to point at. -/
def readQuestion : ByteReader DnsQuestion := do
  let name ← readName
  let qtype ← word
  let qclass ← word
  if name.pointer.isNone then pure ⟨name, qtype, qclass⟩ else fail

def readRecord : ByteReader DnsRecord := do
  let name ← readName
  let rtype ← word
  let rclass ← word
  let ttlHigh ← word
  let ttlLow ← word
  let rdlength ← word
  let rdata ← bytes rdlength
  pure ⟨name, rtype, rclass, ttlHigh * 65536 + ttlLow, rdata.toList⟩

/-- The sections of a message, by the counts that its header announces. -/
def readSections (id : Nat) (flagsHigh flagsLow : UInt8) (qdcount ancount nscount arcount : Nat) :
    ByteReader DnsMessage := do
  let questions ← readQuestion.many qdcount
  let answers ← readRecord.many ancount
  let authority ← readRecord.many nscount
  let additional ← readRecord.many arcount
  pure ⟨id, flagsHigh, flagsLow, questions, answers, authority, additional⟩

def readMessage : ByteReader DnsMessage := do
  let id ← word
  let flagsHigh ← byte
  let flagsLow ← byte
  let qdcount ← word
  let ancount ← word
  let nscount ← word
  let arcount ← word
  readSections id flagsHigh flagsLow qdcount ancount nscount arcount

/-- A datagram is a message when nothing is left behind the announced sections. -/
def parseMessage (datagram : List UInt8) : Option DnsMessage :=
  match readMessage.read datagram with
  | some (m, []) => some m
  | _ => none

theorem parseMessage_eq_some {datagram : List UInt8} {m : DnsMessage} :
    parseMessage datagram = some m ↔ readMessage.read datagram = some (m, []) := by
  unfold parseMessage
  split
  next m' h => rw [h, Option.some.injEq, Option.some.injEq, Prod.mk.injEq, and_iff_left rfl]
  next h => exact iff_of_false nofun (h m)

theorem readMessage_cons (i₁ i₂ f₁ f₂ q₁ q₂ a₁ a₂ n₁ n₂ r₁ r₂ : UInt8) (body : List UInt8) :
    readMessage.read (i₁ :: i₂ :: f₁ :: f₂ :: q₁ :: q₂ :: a₁ :: a₂ :: n₁ :: n₂ :: r₁ :: r₂ :: body) =
      (readSections (ofBytes i₁ i₂) f₁ f₂ (ofBytes q₁ q₂) (ofBytes a₁ a₂) (ofBytes n₁ n₂)
        (ofBytes r₁ r₂)).read body := rfl

theorem readMessage_eq_some {datagram rest : List UInt8} {m : DnsMessage} :
    readMessage.read datagram = some (m, rest) ↔
      ∃ i₁ i₂ f₁ f₂ q₁ q₂ a₁ a₂ n₁ n₂ r₁ r₂ body,
        datagram = i₁ :: i₂ :: f₁ :: f₂ :: q₁ :: q₂ :: a₁ :: a₂ :: n₁ :: n₂ :: r₁ :: r₂ :: body ∧
        (readSections (ofBytes i₁ i₂) f₁ f₂ (ofBytes q₁ q₂) (ofBytes a₁ a₂) (ofBytes n₁ n₂)
          (ofBytes r₁ r₂)).read body = some (m, rest) := by
  constructor
  · intro h
    obtain ⟨_, _, hid, h⟩ := read_bind_eq_some.mp h
    obtain ⟨f₁, _, hf₁, h⟩ := read_bind_eq_some.mp h
    obtain ⟨f₂, _, hf₂, h⟩ := read_bind_eq_some.mp h
    obtain ⟨_, _, hqd, h⟩ := read_bind_eq_some.mp h
    obtain ⟨_, _, han, h⟩ := read_bind_eq_some.mp h
    obtain ⟨_, _, hns, h⟩ := read_bind_eq_some.mp h
    obtain ⟨_, body, har, h⟩ := read_bind_eq_some.mp h
    obtain ⟨i₁, i₂, rfl, rfl⟩ := word_eq_some.mp hid
    obtain rfl := byte_eq_some.mp hf₁
    obtain rfl := byte_eq_some.mp hf₂
    obtain ⟨q₁, q₂, rfl, rfl⟩ := word_eq_some.mp hqd
    obtain ⟨a₁, a₂, rfl, rfl⟩ := word_eq_some.mp han
    obtain ⟨n₁, n₂, rfl, rfl⟩ := word_eq_some.mp hns
    obtain ⟨r₁, r₂, rfl, rfl⟩ := word_eq_some.mp har
    exact ⟨i₁, i₂, f₁, f₂, q₁, q₂, a₁, a₂, n₁, n₂, r₁, r₂, body, rfl, h⟩
  · rintro ⟨i₁, i₂, f₁, f₂, q₁, q₂, a₁, a₂, n₁, n₂, r₁, r₂, body, rfl, h⟩
    rwa [readMessage_cons]

theorem readSections_eq_some {id qd an ns ar : Nat} {f₁ f₂ : UInt8} {body rest : List UInt8}
    {m : DnsMessage} :
    (readSections id f₁ f₂ qd an ns ar).read body = some (m, rest) ↔
      m.id = id ∧ m.flagsHigh = f₁ ∧ m.flagsLow = f₂ ∧ ∃ questioned answered authorized,
        (readQuestion.many qd).read body = some (m.questions, questioned) ∧
        (readRecord.many an).read questioned = some (m.answers, answered) ∧
        (readRecord.many ns).read answered = some (m.authority, authorized) ∧
        (readRecord.many ar).read authorized = some (m.additional, rest) := by
  simp only [readSections, read_bind_eq_some, read_pure_eq_some]
  constructor
  · rintro ⟨qs, b₁, hqs, as, b₂, has, ns, b₃, hns, ar, b₄, har, rfl, rfl⟩
    exact ⟨rfl, rfl, rfl, b₁, b₂, b₃, hqs, has, hns, har⟩
  · rintro ⟨rfl, rfl, rfl, b₁, b₂, b₃, hqs, has, hns, har⟩
    exact ⟨_, b₁, hqs, _, b₂, has, _, b₃, hns, _, rest, har, rfl, rfl⟩

theorem readQuestion_name {input rest : List UInt8} {question : DnsQuestion}
    (h : readQuestion.read input = some (question, rest)) :
    ∃ mid, readName.read input = some (question.name, mid) := by
  obtain ⟨name, mid, hname, h⟩ := read_bind_eq_some.mp h
  obtain ⟨qtype, _, _, h⟩ := read_bind_eq_some.mp h
  obtain ⟨qclass, _, _, h⟩ := read_bind_eq_some.mp h
  split at h
  next =>
    obtain ⟨rfl, _⟩ := read_pure_eq_some.mp h
    exact ⟨mid, hname⟩
  next => cases h

/-- Where any section holds a record, the bytes before the first of them read as one. -/
theorem first_record_read {an ns ar : Nat} {tail answered authorized rest : List UInt8}
    {as ns' ar' : List DnsRecord} (has : (readRecord.many an).read tail = some (as, answered))
    (hns : (readRecord.many ns).read answered = some (ns', authorized))
    (har : (readRecord.many ar).read authorized = some (ar', rest))
    (hsome : ¬(as = [] ∧ ns' = [] ∧ ar' = [])) :
    ∃ r mid, readRecord.read tail = some (r, mid) := by
  cases an with
  | succ an =>
    obtain ⟨r, _, mid, hr, _, _⟩ := many_succ.mp has
    exact ⟨r, mid, hr⟩
  | zero =>
    obtain ⟨hnone, rfl⟩ := many_zero.mp has
    cases ns with
    | succ ns =>
      obtain ⟨r, _, mid, hr, _, _⟩ := many_succ.mp hns
      exact ⟨r, mid, hr⟩
    | zero =>
      obtain ⟨hnone', rfl⟩ := many_zero.mp hns
      cases ar with
      | succ ar =>
        obtain ⟨r, _, mid, hr, _, _⟩ := many_succ.mp har
        exact ⟨r, mid, hr⟩
      | zero => exact absurd ⟨hnone, hnone', (many_zero.mp har).1⟩ hsome

end GateAccess
