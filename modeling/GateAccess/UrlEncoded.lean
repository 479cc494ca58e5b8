import Mathlib.Data.List.TakeWhile
import Mathlib.Data.List.Infix

namespace GateAccess

section

variable (pair : UInt8 → UInt8 → Option UInt8)

/-- The bytes a form value stands for: a plus is a space, a percent sign takes the two that follow,
and everything else is itself. -/
def unescape : List UInt8 → Option (List UInt8)
  | [] => some []
  | c :: s =>
    if c = 43 then (unescape s).map (32 :: ·)
    else if c = 37 then
      match s with
      | hi :: lo :: s =>
        match pair hi lo with
        | some d => (unescape s).map (d :: ·)
        | none => none
      | _ => none
    else (unescape s).map (c :: ·)

variable {pair}

theorem unescape_plus (s : List UInt8) : unescape pair (43 :: s) = (unescape pair s).map (32 :: ·) := by
  rw [unescape.eq_def]
  simp

theorem unescape_escape (hi lo : UInt8) (s : List UInt8) :
    unescape pair (37 :: hi :: lo :: s) =
      (pair hi lo).bind fun d => (unescape pair s).map (d :: ·) := by
  rw [unescape]
  cases pair hi lo <;> simp

theorem unescape_plain {c : UInt8} (s : List UInt8) (hplus : c ≠ 43) (hescape : c ≠ 37) :
    unescape pair (c :: s) = (unescape pair s).map (c :: ·) := by
  rw [unescape.eq_def]
  simp [hplus, hescape]

/-- One unit of input gives one byte. -/
theorem unescape_cons {c : UInt8} {s t : List UInt8} (h : unescape pair (c :: s) = some t) :
    ∃ d used rest t', s = used ++ rest ∧ t = d :: t' ∧ unescape pair rest = some t' ∧
      ∀ more, unescape pair (c :: (used ++ more)) = (unescape pair more).map (d :: ·) := by
  by_cases hplus : c = 43
  · subst c
    rw [unescape_plus] at h
    obtain ⟨t', ht, rfl⟩ := Option.map_eq_some_iff.mp h
    exact ⟨32, [], s, t', rfl, rfl, ht, unescape_plus⟩
  · by_cases hescape : c = 37
    · subst c
      rcases s with _ | ⟨hi, _ | ⟨lo, s⟩⟩
      · simp [unescape] at h
      · simp [unescape] at h
      · rw [unescape_escape] at h
        obtain ⟨d, hd, hmap⟩ := Option.bind_eq_some_iff.mp h
        obtain ⟨t', ht, rfl⟩ := Option.map_eq_some_iff.mp hmap
        refine ⟨d, [hi, lo], s, t', rfl, rfl, ht, fun more => ?_⟩
        simp [unescape_escape, hd]
    · rw [unescape_plain s hplus hescape] at h
      obtain ⟨t', ht, rfl⟩ := Option.map_eq_some_iff.mp h
      exact ⟨c, [], s, t', rfl, rfl, ht, fun more => unescape_plain more hplus hescape⟩

theorem unescape_nil_iff {s : List UInt8} : unescape pair s = some [] ↔ s = [] := by
  constructor
  · intro h
    cases s with
    | nil => rfl
    | cons c s =>
      obtain ⟨d, used, rest, t', -, ht, -⟩ := unescape_cons h
      cases ht
  · rintro rfl
    rfl

theorem unescape_append {s t : List UInt8} (more : List UInt8) (h : unescape pair s = some t) :
    unescape pair (s ++ more) = (unescape pair more).map (t ++ ·) := by
  induction hn : s.length using Nat.strong_induction_on generalizing s t with
  | _ n ih =>
    cases s with
    | nil =>
      obtain rfl := Option.some.inj h
      simp
    | cons c s =>
      obtain ⟨d, used, rest, t', rfl, rfl, hrest, hunit⟩ := unescape_cons h
      have hshort : rest.length < n := by
        simp only [List.length_cons, List.length_append] at hn
        omega
      rw [List.cons_append, List.append_assoc, hunit, ih _ hshort hrest rfl, Option.map_map]
      rfl

/-- What a cut leaves of a value decodes to less. -/
theorem unescape_prefix {s s' t t' : List UInt8} (hs : s' <+: s) (h : unescape pair s = some t)
    (h' : unescape pair s' = some t') (hlen : t.length ≤ t'.length) : s' = s := by
  obtain ⟨more, rfl⟩ := hs
  rw [unescape_append more h'] at h
  obtain ⟨u, hu, rfl⟩ := Option.map_eq_some_iff.mp h
  have hnil : u = [] := by
    rw [List.length_append] at hlen
    exact List.length_eq_zero_iff.mp (by omega)
  rw [hnil, unescape_nil_iff] at hu
  simp [hu]

/-- The value in one field, if the field is the one asked for. -/
def valueOf (name field : List UInt8) : Option (List UInt8) :=
  if name ++ [61] <+: field then some (field.drop (name.length + 1)) else none

/-- The value of the first field of that name. -/
def fieldValue (name body : List UInt8) : Option (List UInt8) :=
  (body.splitOn 38).findSome? (valueOf name)

theorem fieldValue_single {body : List UInt8} (name : List UInt8) (h : 38 ∉ body) :
    fieldValue name body = valueOf name body := by
  rw [fieldValue, List.splitOn_eq_singleton h, List.findSome?_cons]
  cases valueOf name body <;> rfl

theorem fieldValue_fields {field : List UInt8} (name rest : List UInt8) (h : 38 ∉ field) :
    fieldValue name (field ++ 38 :: rest) = (valueOf name field).or (fieldValue name rest) := by
  rw [fieldValue, List.splitOn_append_cons_self, List.splitOn_eq_singleton h, List.singleton_append,
    List.findSome?_cons, fieldValue]
  cases valueOf name field <;> rfl

theorem valueOf_prefix {name field field' v' : List UInt8} (h : field' <+: field)
    (h' : valueOf name field' = some v') : ∃ v, valueOf name field = some v ∧ v' <+: v := by
  unfold valueOf at h' ⊢
  split_ifs at h' with hname
  obtain rfl := Option.some.inj h'
  exact ⟨_, if_pos (hname.trans h), h.drop _⟩

/-- A body and its first field. -/
theorem body_cases (body : List UInt8) :
    38 ∉ body ∨ ∃ field rest, body = field ++ 38 :: rest ∧ 38 ∉ field := by
  induction body with
  | nil => exact .inl (by simp)
  | cons c body ih =>
    by_cases hc : c = 38
    · exact .inr ⟨[], body, by simp [hc], by simp⟩
    · rcases ih with h | ⟨field, rest, rfl, h⟩
      · exact .inl (by simp [Ne.symm hc, h])
      · exact .inr ⟨c :: field, rest, rfl, by simp [Ne.symm hc, h]⟩

/-- A field that a cut body still has is the field of the whole body, up to the cut. -/
theorem fieldValue_prefix {name body body' v' : List UInt8} (h : body' <+: body)
    (h' : fieldValue name body' = some v') : ∃ v, fieldValue name body = some v ∧ v' <+: v := by
  induction hn : body.length using Nat.strong_induction_on generalizing body body' with
  | _ n ih =>
    rcases body_cases body with hone | ⟨field, rest, rfl, hfield⟩
    · have hone' : 38 ∉ body' := fun hmem => hone (h.subset hmem)
      rw [fieldValue_single name hone'] at h'
      rw [fieldValue_single name hone]
      exact valueOf_prefix h h'
    · rw [fieldValue_fields name rest hfield]
      rcases List.prefix_or_prefix_of_prefix h (List.prefix_append field _) with hcut | ⟨more, rfl⟩
      · have hone' : 38 ∉ body' := fun hmem => hfield (hcut.subset hmem)
        rw [fieldValue_single name hone'] at h'
        obtain ⟨v, hv, hpre⟩ := valueOf_prefix hcut h'
        exact ⟨v, by rw [hv]; rfl, hpre⟩
      · rw [List.prefix_append_right_inj] at h
        cases more with
        | nil =>
          rw [List.append_nil, fieldValue_single name hfield] at h'
          exact ⟨v', by rw [h']; rfl, List.prefix_refl v'⟩
        | cons c more =>
          obtain ⟨rfl, hmore⟩ := List.cons_prefix_cons.mp h
          rw [fieldValue_fields name more hfield] at h'
          cases hfirst : valueOf name field with
          | some v =>
            rw [hfirst] at h'
            exact ⟨v, rfl, Option.some.inj h' ▸ List.prefix_refl v⟩
          | none =>
            rw [hfirst, Option.none_or] at h'
            have hshort : rest.length < n := by
              rw [List.length_append, List.length_cons] at hn
              omega
            exact ih _ hshort hmore h' rfl

end

end GateAccess
