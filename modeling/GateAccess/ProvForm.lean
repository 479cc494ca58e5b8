import GateAccess.CBytes
import GateAccess.UrlEncoded
import Mathlib.Data.List.GetD

namespace GateAccess

def hexVal (c : UInt8) : Option UInt8 :=
  if 48 ≤ c ∧ c ≤ 57 then some (c - 48)
  else if 97 ≤ c ∧ c ≤ 102 then some (c - 97 + 10)
  else if 65 ≤ c ∧ c ≤ 70 then some (c - 65 + 10)
  else none

def hexPair (hi lo : UInt8) : Option UInt8 :=
  match hexVal hi, hexVal lo with
  | some hi, some lo => some (hi <<< 4 ||| lo)
  | _, _ => none

/-- The loop of `prov_url_decode`: what is left of the source, and what is written so far. -/
def urlDecodeLoop (dstSize : Nat) : List UInt8 → List UInt8 → Option (List UInt8)
  | [], out => some out
  | c :: src, out =>
    if c = 43 then
      if out.length + 1 ≥ dstSize then none else urlDecodeLoop dstSize src (out ++ [32])
    else if c = 37 then
      match src with
      | hi :: lo :: src =>
        match hexPair hi lo with
        | none => none
        | some decoded =>
          if out.length + 1 ≥ dstSize then none else urlDecodeLoop dstSize src (out ++ [decoded])
      -- an escape cut short
      | _ => none
    else if out.length + 1 ≥ dstSize then none
    else urlDecodeLoop dstSize src (out ++ [c])

/-- The destination afterwards, and the length; none for `-1`. -/
def provUrlDecode (dstSize : Nat) (src : List UInt8) : Bytes dstSize × Option Nat :=
  if dstSize = 0 then (zeros _, none)
  else
    match urlDecodeLoop dstSize src [] with
    | none => (zeros _, none)
    | some out => (fill _ out, some out.length)

/-- The walk of `prov_form_field`, which only ever stands at the start of a field; each round eats at
least a byte. -/
def formScan (name : List UInt8) : Nat → List UInt8 → Option (List UInt8)
  | 0, _ => none
  | n + 1, p =>
    if p = [] then none
    else if strncmpEq name.length p name && p.getD name.length 0 = 61 then
      some ((p.drop (name.length + 1)).takeWhile (· ≠ 38))
    else
      match p.dropWhile (· ≠ 38) with
      | [] => none
      | _ :: next => formScan name n next

def provFormField (body name : List UInt8) (outSize : Nat) : Bytes outSize × Bool :=
  if outSize = 0 ∨ cstr name = [] then (zeros _, false)
  else
    match formScan (cstr name) (cstr body).length (cstr body) with
    | none => (zeros _, false)
    | some value => ((provUrlDecode outSize value).1, (provUrlDecode outSize value).2.isSome)

theorem urlDecodeLoop_eq {dstSize : Nat} (src out : List UInt8) (h : out.length < dstSize) :
    urlDecodeLoop dstSize src out =
      (unescape hexPair src).bind fun t =>
        if out.length + t.length < dstSize then some (out ++ t) else none := by
  induction hn : src.length using Nat.strong_induction_on generalizing src out with
  | _ n ih =>
    -- every kind of unit ends in the same store
    have hstore : ∀ d rest, rest.length < n →
        (if out.length + 1 ≥ dstSize then none else urlDecodeLoop dstSize rest (out ++ [d])) =
          ((unescape hexPair rest).map (d :: ·)).bind fun t =>
            if out.length + t.length < dstSize then some (out ++ t) else none := by
      intro d rest hrest
      by_cases hfull : out.length + 1 ≥ dstSize
      · cases unescape hexPair rest with
        | none => simp [hfull]
        | some t =>
          have hover : ¬out.length + (t.length + 1) < dstSize := by omega
          simp [hfull, hover]
      · have hroom : (out ++ [d]).length < dstSize := by
          rw [List.length_append, List.length_singleton]
          omega
        rw [if_neg hfull, ih _ hrest rest (out ++ [d]) hroom rfl]
        cases unescape hexPair rest with
        | none => rfl
        | some t => simp [Nat.add_assoc, Nat.add_comm 1]
    cases src with
    | nil => simp [urlDecodeLoop, unescape, h]
    | cons c src =>
      rw [List.length_cons] at hn
      by_cases hplus : c = 43
      · subst c
        rw [unescape_plus, ← hstore 32 src (by omega), urlDecodeLoop.eq_def]
        simp
      · by_cases hescape : c = 37
        · subst c
          rcases src with _ | ⟨hi, _ | ⟨lo, src⟩⟩
          · rfl
          · rfl
          · rw [unescape_escape, urlDecodeLoop]
            cases hd : hexPair hi lo with
            | none => simp
            | some d =>
              simp only [List.length_cons] at hn
              simpa using hstore d src (by omega)
        · rw [unescape_plain src hplus hescape, ← hstore c src (by omega), urlDecodeLoop.eq_def]
          simp [hplus, hescape]

theorem provUrlDecode_eq {dstSize : Nat} (src : List UInt8) (h : 0 < dstSize) :
    provUrlDecode dstSize src =
      match (unescape hexPair src).filter (·.length < dstSize) with
      | some t => (fill _ t, some t.length)
      | none => (zeros _, none) := by
  rw [provUrlDecode, if_neg h.ne', urlDecodeLoop_eq src [] h]
  cases unescape hexPair src with
  | none => rfl
  | some t => by_cases ht : t.length < dstSize <;> simp [Option.filter, ht]

/-- At a field's start the walk finds the name exactly when the field has it. -/
theorem formScan_match {name p : List UInt8} (hname : 0 ∉ name) (hp : 0 ∉ p) :
    (strncmpEq name.length p name && p.getD name.length 0 = 61) = true ↔ name ++ [61] <+: p := by
  rw [Bool.and_eq_true, strncmpEq_iff, cstr_eq_self hname, cstr_eq_self hp, List.take_length,
    decide_eq_true_eq]
  constructor
  · rintro ⟨htake, hget⟩
    have hlt : name.length < p.length := by
      by_contra hge
      rw [List.getD_eq_default _ _ (not_lt.mp hge)] at hget
      cases hget
    rw [List.getD_eq_getElem _ _ hlt] at hget
    rw [← List.take_append_drop name.length p, htake, List.prefix_append_right_inj,
      List.drop_eq_getElem_cons hlt, hget]
    simp
  · rintro ⟨more, rfl⟩
    simp

theorem valueOf_nil (name : List UInt8) : valueOf name [] = none := by
  simp [valueOf]

/-- The walk over a C string finds the first field of that name. -/
theorem formScan_eq {name p : List UInt8} {n : Nat} (hname : 0 ∉ name) (hamp : 38 ∉ name)
    (hp : 0 ∉ p) (hn : p.length ≤ n) : formScan name n p = fieldValue name p := by
  have hclean : 38 ∉ name ++ [61] := by simp [hamp]
  induction n generalizing p with
  | zero =>
    obtain rfl := List.length_eq_zero_iff.mp (Nat.le_zero.mp hn)
    rw [fieldValue_single name (by simp), valueOf_nil, formScan]
  | succ n ih =>
    by_cases hempty : p = []
    · rw [hempty, fieldValue_single name (by simp), valueOf_nil, formScan, if_pos rfl]
    · rw [formScan, if_neg hempty]
      rcases body_cases p with hone | ⟨field, rest, rfl, hfield⟩
      · have hall : ∀ c ∈ p, (decide (c ≠ 38)) = true := fun c hc => by
          simpa using fun h : c = 38 => hone (h ▸ hc)
        have hvalue : (p.drop (name.length + 1)).takeWhile (· ≠ 38) = p.drop (name.length + 1) :=
          List.takeWhile_eq_self_iff.mpr fun c hc => hall c (List.mem_of_mem_drop hc)
        rw [fieldValue_single name hone, valueOf, List.dropWhile_eq_nil_iff.mpr hall, hvalue]
        exact if_congr (formScan_match hname hp) rfl rfl
      · have hall : ∀ c ∈ field, (decide (c ≠ 38)) = true := fun c hc => by
          simpa using fun h : c = 38 => hfield (h ▸ hc)
        have hrest : 0 ∉ rest := fun h => hp (by simp [h])
        have hshort : rest.length ≤ n := by
          rw [List.length_append, List.length_cons] at hn
          omega
        have hdrop : (field ++ 38 :: rest).dropWhile (· ≠ 38) = 38 :: rest := by
          rw [List.dropWhile_append_of_pos hall]
          simp
        -- a match lies within the field
        have hmatch : name ++ [61] <+: field ++ 38 :: rest ↔ name ++ [61] <+: field := by
          refine ⟨fun h => ?_, fun h => h.trans (List.prefix_append _ _)⟩
          rcases List.prefix_or_prefix_of_prefix h (List.prefix_append _ _) with h' | ⟨more, hmore⟩
          · exact h'
          · cases more with
            | nil => rw [← hmore, List.append_nil]
            | cons c more =>
              rw [← hmore, List.prefix_append_right_inj, List.cons_prefix_cons] at h
              refine absurd ?_ hclean
              rw [← hmore, h.1]
              simp
        rw [fieldValue_fields name rest hfield, valueOf, hdrop, ← ih hrest hshort]
        by_cases hfound : name ++ [61] <+: field
        · rw [if_pos ((formScan_match hname hp).mpr (hmatch.mpr hfound)), if_pos hfound,
            Option.some_or]
          have hlen : name.length + 1 ≤ field.length := by simpa using hfound.length_le
          rw [List.drop_append_of_le_length hlen, List.takeWhile_append_of_pos fun c hc =>
            hall c (List.mem_of_mem_drop hc)]
          simp
        · rw [if_neg fun h => hfound (hmatch.mp ((formScan_match hname hp).mp h)), if_neg hfound,
            Option.none_or]

/-- The text of a field as the caller reads it from the buffer: empty when there is no such field,
when it is malformed and when it does not fit. -/
def fieldText (name : List UInt8) (size : Nat) (body : List UInt8) : List UInt8 :=
  match (fieldValue name (cstr body)).bind (unescape hexPair) with
  | some t => if t.length < size then cstr t else []
  | none => []

theorem provFormField_text {body name : List UInt8} {size : Nat} (hsize : 0 < size)
    (hname : 0 ∉ name) (hamp : 38 ∉ name) (hne : name ≠ []) :
    cstr (provFormField body name size).1.toList = fieldText name size body ∧
      (fieldText name size body ≠ [] → (provFormField body name size).2 = true) := by
  have hzero : cstr (zeros size).toList = [] := cstr_pad [] size
  rw [provFormField, cstr_eq_self hname, if_neg (by simp [hsize.ne', hne]),
    formScan_eq hname hamp (zero_not_mem_cstr body) le_rfl, fieldText]
  cases fieldValue name (cstr body) with
  | none => simp [hzero]
  | some value =>
    dsimp only
    rw [provUrlDecode_eq value hsize, Option.bind_some]
    cases unescape hexPair value with
    | none => simp [hzero]
    | some t =>
      by_cases ht : t.length < size
      · simp [Option.filter, ht, cstr_fill ht.le]
      · simp [Option.filter, ht, hzero]

end GateAccess
