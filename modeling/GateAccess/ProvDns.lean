import GateAccess.DnsMessage

namespace GateAccess

open ByteReader

def dnsMaxLen : Nat := 512
def dnsTtl : UInt8 := 10

/-- `PROV_AP_IP`, in network order. -/
def provApIp : List UInt8 := [192, 168, 4, 1]

/-- The bytes that `build_reply` puts behind the query: a pointer back to the question's name,
then A / IN. -/
def replyRecord : List UInt8 :=
  [0xC0, 0x0C, 0x00, 0x01, 0x00, 0x01, 0x00, 0x00, 0x00, dnsTtl, 0x00, 0x04] ++ provApIp

/-- `build_reply`; nothing where it returns zero. -/
def buildReply (q : List UInt8) (outMax : Nat) : Option (List UInt8) :=
  if q.length < 12 ∨ q.length > outMax then none
  else if q.getD 2 0 &&& 0x80 ≠ 0 ∨ q.getD 4 0 ≠ 0 ∨ q.getD 5 0 = 0 then none
  else
    let out := (((((((q.set 2 0x81).set 3 0x80).set 6 0).set 7 1).set 8 0).set 9 0).set 10 0).set 11 0
    if q.length + 16 > outMax then none else some (out ++ replyRecord)

/-- One turn of `dns_task`: what is sent back for a datagram that arrives. -/
def dnsTurn (datagram : List UInt8) : Option (List UInt8) :=
  buildReply (datagram.take dnsMaxLen) (dnsMaxLen + 16)

/-- The announced answer: the question's name, the address of the portal. -/
def portalAnswer : DnsRecord :=
  { name := ⟨[], some dnsHeaderLength⟩
    rtype := 1
    rclass := 1
    ttl := dnsTtl.toNat
    rdata := provApIp }

/-- A datagram that answers a query: a response with its id and its question, after the question
the one announced answer, and the question's name where the answer's name points. -/
def Answers (query : DnsMessage) (datagram : List UInt8) : Prop :=
  (∃ reply, parseMessage datagram = some reply ∧ reply.isResponse = true ∧ reply.id = query.id ∧
    reply.questions = query.questions ∧ reply.answers = [portalAnswer] ∧
    reply.authority = [] ∧ reply.additional = []) ∧
  ∀ question ∈ query.questions, ∃ rest,
    readName.read (datagram.drop dnsHeaderLength) = some (question.name, rest)

/-- A message that ends with its question. -/
def DnsMessage.Bare (m : DnsMessage) : Prop :=
  m.answers = [] ∧ m.authority = [] ∧ m.additional = []

theorem replyRecord_read : readRecord.read replyRecord = some (portalAnswer, []) := by decide

theorem buildReply_length {q out : List UInt8} {outMax : Nat}
    (h : buildReply q outMax = some out) : out.length ≤ outMax := by
  obtain ⟨_, h⟩ := Option.ite_none_left_eq_some.mp h
  obtain ⟨_, h⟩ := Option.ite_none_left_eq_some.mp h
  obtain ⟨hroom, h⟩ := Option.ite_none_left_eq_some.mp h
  obtain rfl := Option.some.inj h
  rw [List.length_append]
  simp only [List.length_set]
  exact not_lt.mp hroom

/-- The reply is the query with its flags and counts rewritten, and the record behind all of
it. -/
theorem buildReply_eq_some {i₁ i₂ f₁ f₂ q₁ q₂ a₁ a₂ n₁ n₂ r₁ r₂ : UInt8} {body out : List UInt8}
    {outMax : Nat} :
    buildReply (i₁ :: i₂ :: f₁ :: f₂ :: q₁ :: q₂ :: a₁ :: a₂ :: n₁ :: n₂ :: r₁ :: r₂ :: body)
        outMax = some out ↔
      (f₁ &&& 0x80 = 0 ∧ q₁ = 0 ∧ q₂ ≠ 0) ∧ body.length + 28 ≤ outMax ∧
        i₁ :: i₂ :: 0x81 :: 0x80 :: q₁ :: q₂ :: 0 :: 1 :: 0 :: 0 :: 0 :: 0 ::
          (body ++ replyRecord) = out := by
  unfold buildReply
  rw [Option.ite_none_left_eq_some, Option.ite_none_left_eq_some, Option.ite_none_left_eq_some,
    Option.some.injEq]
  simp only [List.length_cons, not_or, not_not, List.getD_cons_succ, List.getD_cons_zero]
  constructor
  · rintro ⟨_, hasks, hroom, hout⟩
    exact ⟨hasks, by omega, hout⟩
  · rintro ⟨hasks, hroom, hout⟩
    exact ⟨by omega, hasks, by omega, hout⟩

theorem ofBytes_eq_one {high low : UInt8} (h : ofBytes high low = 1) : high = 0 ∧ low = 1 := by
  unfold ofBytes at h
  have hlow := low.toNat_lt
  have hhigh : high.toNat = 0 := by omega
  exact ⟨UInt8.toNat_inj.mp hhigh, UInt8.toNat_inj.mp (by rw [UInt8.toNat_one]; omega)⟩

/-- What a receiver reads in the reply: the query's questions, and then one record, from the
bytes that followed the questions in the query on. -/
theorem reply_parse {i₁ i₂ q₁ q₂ : UInt8} {body tail : List UInt8} {questions : List DnsQuestion}
    {reply : DnsMessage}
    (hqs : (readQuestion.many (ofBytes q₁ q₂)).read body = some (questions, tail)) :
    parseMessage (i₁ :: i₂ :: 0x81 :: 0x80 :: q₁ :: q₂ :: 0 :: 1 :: 0 :: 0 :: 0 :: 0 ::
        (body ++ replyRecord)) = some reply ↔
      ∃ r, readRecord.read (tail ++ replyRecord) = some (r, []) ∧
        reply = ⟨ofBytes i₁ i₂, 0x81, 0x80, questions, [r], [], []⟩ := by
  have hqs' := read_append hqs replyRecord
  have hcount : ofBytes 0 1 = 1 ∧ ofBytes 0 0 = 0 := by decide
  rw [parseMessage_eq_some, readMessage_cons, readSections_eq_some, hcount.1, hcount.2]
  constructor
  · rintro ⟨hid, hhigh, hlow, questioned, answered, authorized, hread, has, hns, har⟩
    obtain ⟨hquestions, rfl⟩ := Prod.mk.inj (Option.some.inj (hqs'.symm.trans hread))
    obtain ⟨r, rest, mid, hr, hrest, hanswers⟩ := many_succ.mp has
    obtain ⟨rfl, rfl⟩ := many_zero.mp hrest
    obtain ⟨hauthority, rfl⟩ := many_zero.mp hns
    obtain ⟨hadditional, rfl⟩ := many_zero.mp har
    refine ⟨r, hr, ?_⟩
    cases reply
    simp_all
  · rintro ⟨r, hr, rfl⟩
    exact ⟨rfl, rfl, rfl, _, [], [], hqs',
      many_succ.mpr ⟨r, [], [], hr, many_zero.mpr ⟨rfl, rfl⟩, rfl⟩,
      many_zero.mpr ⟨rfl, rfl⟩, many_zero.mpr ⟨rfl, rfl⟩⟩

/-- **A query with nothing behind its question is answered, and no other query is.** -/
theorem buildReply_answers_iff {q : List UInt8} {m : DnsMessage}
    (hq : parseMessage q = some m) (hlen : q.length ≤ dnsMaxLen) (hqr : m.isResponse = false)
    (hone : m.questions.length = 1) :
    (∃ out, dnsTurn q = some out) ∧ ∀ outMax out, buildReply q outMax = some out →
      out.length ≤ outMax ∧ (Answers m out ↔ m.Bare) := by
  obtain ⟨i₁, i₂, f₁, f₂, q₁, q₂, a₁, a₂, n₁, n₂, r₁, r₂, body, rfl, hread⟩ :=
    readMessage_eq_some.mp (parseMessage_eq_some.mp hq)
  obtain ⟨hid, hf₁, _, tail, answered, authorized, hqs, has, hns, har⟩ :=
    readSections_eq_some.mp hread
  have hqd : ofBytes q₁ q₂ = 1 := (many_length hqs).symm.trans hone
  have hflag : f₁ &&& 0x80 = 0 := by
    rw [← hf₁]
    simpa [DnsMessage.isResponse] using hqr
  refine ⟨?_, fun outMax out hout => ⟨buildReply_length hout, ?_⟩⟩
  · obtain ⟨hq₁, hq₂⟩ := ofBytes_eq_one hqd
    rw [dnsTurn, List.take_of_length_le hlen]
    refine ⟨_, buildReply_eq_some.mpr ⟨⟨hflag, hq₁, ?_⟩, ?_, rfl⟩⟩
    · rw [hq₂]
      decide
    · simp only [List.length_cons] at hlen
      omega
  obtain ⟨_, _, rfl⟩ := buildReply_eq_some.mp hout
  constructor
  · rintro ⟨⟨reply, hreply, _⟩, _⟩
    obtain ⟨r, hr, _⟩ := (reply_parse hqs).mp hreply
    -- A record of the query stands before the announced one, which is then left over.
    by_contra hmore
    obtain ⟨first, mid, hfirst⟩ := first_record_read has hns har hmore
    have hfirst' := read_append hfirst replyRecord
    obtain ⟨_, hleft⟩ := Prod.mk.inj (Option.some.inj (hr.symm.trans hfirst'))
    exact absurd (List.append_eq_nil_iff.mp hleft.symm).2 (by decide)
  · rintro ⟨han, hns', har'⟩
    rw [han] at has
    rw [hns'] at hns
    rw [har'] at har
    have htail : tail = [] := (many_nil has).trans ((many_nil hns).trans (many_nil har))
    rw [htail] at hqs
    refine ⟨⟨_, (reply_parse hqs).mpr ⟨portalAnswer, replyRecord_read, rfl⟩, ?_⟩, ?_⟩
    · have hresponse : (0x81 &&& 0x80 : UInt8) ≠ 0 := by decide
      exact ⟨decide_eq_true hresponse, hid.symm, rfl, rfl, rfl, rfl⟩
    · intro question hquestion
      rw [hqd] at hqs
      obtain ⟨first, rest, mid, hfirst, hrest, hcons⟩ := many_succ.mp hqs
      obtain ⟨rfl, _⟩ := many_zero.mp hrest
      rw [← hcons, List.mem_singleton] at hquestion
      obtain ⟨_, hname⟩ := readQuestion_name hfirst
      rw [hquestion]
      exact ⟨_, read_append hname replyRecord⟩

/-- A query for the addresses of the name `a`, and the same query with an EDNS record behind its
question. -/
def plainQuery : List UInt8 :=
  [0x12, 0x34, 0x01, 0x00, 0, 1, 0, 0, 0, 0, 0, 0, 1, 97, 0, 0, 1, 0, 1]

def ednsQuery : List UInt8 :=
  [0x12, 0x34, 0x01, 0x00, 0, 1, 0, 0, 0, 0, 0, 1, 1, 97, 0, 0, 1, 0, 1] ++
    [0, 0, 41, 0x04, 0xD0, 0, 0, 0, 0, 0, 0]

theorem buildReply_answers_plain : ∃ m, parseMessage plainQuery = some m ∧
    (∃ out, dnsTurn plainQuery = some out) ∧ ∀ outMax out, buildReply plainQuery outMax = some out →
      out.length ≤ outMax ∧ (Answers m out ↔ m.Bare) :=
  ⟨⟨0x1234, 0x01, 0x00, [⟨⟨[⟨[97], by decide, by decide⟩], none⟩, 1, 1⟩], [], [], []⟩, by decide,
    buildReply_answers_iff (by decide) (by decide) (by decide) (by decide)⟩

/-- The EDNS record is what a receiver finds where the answer is announced. -/
theorem edns_query_unanswered : ¬∀ q m, parseMessage q = some m → q.length ≤ dnsMaxLen →
    m.isResponse = false → m.questions.length = 1 →
      ∃ out, dnsTurn q = some out ∧ out.length ≤ dnsMaxLen + 16 ∧ Answers m out := by
  intro hclaim
  obtain ⟨out, hout, _, ⟨reply, hreply, _⟩, _⟩ := hclaim ednsQuery
    ⟨0x1234, 0x01, 0x00, [⟨⟨[⟨[97], by decide, by decide⟩], none⟩, 1, 1⟩], [], [],
      [⟨⟨[], none⟩, 41, 1232, 0, []⟩]⟩ (by decide) (by decide) (by decide) (by decide)
  have hparse : (dnsTurn ednsQuery).map parseMessage = some none := by decide
  rw [hout, Option.map_some, hreply] at hparse
  exact absurd hparse (by simp)

end GateAccess
