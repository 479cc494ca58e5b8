import GateAccess.HexText
import GateAccess.ProvForm

namespace GateAccess

/-- The text has the escape `%00`. -/
def nulEscape : List UInt8 → Bool
  | [] => false
  | c :: text =>
    if c = 37 then
      match text with
      | hi :: lo :: text => (hi = 48 && lo = 48) || nulEscape text
      | _ => false
    else nulEscape text

theorem hexVal_zero {c d : UInt8} (h : hexVal c = some d) : d.toNat < 16 ∧ (d = 0 ↔ c = 48) := by
  have hall : ∀ k < 256, (hexVal (UInt8.ofNat k)).all
      (fun d => d.toNat < 16 && decide (d = 0 ↔ UInt8.ofNat k = 48)) = true := by decide +kernel
  have hc := hall c.toNat c.toNat_lt
  rw [UInt8.ofNat_toNat, h] at hc
  simpa using hc

theorem hexPair_zero {hi lo c : UInt8} (h : hexPair hi lo = some c) : c = 0 ↔ hi = 48 ∧ lo = 48 := by
  unfold hexPair at h
  split at h
  next h' l hhi hlo =>
    obtain rfl := Option.some.inj h
    obtain ⟨hh, hh0⟩ := hexVal_zero hhi
    obtain ⟨hl, hl0⟩ := hexVal_zero hlo
    have hjoin := join_nibbles hh hl
    rw [← hh0, ← hl0, ← UInt8.toNat_inj, ← UInt8.toNat_inj (a := h'), ← UInt8.toNat_inj (a := l), hjoin]
    simp
  next => cases h

/-- A NUL comes out of a text only through its escape. -/
theorem unescape_nul {text value : List UInt8} (h : unescape hexPair text = some value)
    (htext : 0 ∉ text) : 0 ∈ value ↔ nulEscape text = true := by
  induction text using nulEscape.induct generalizing value with
  | case1 =>
    obtain rfl := Option.some.inj h
    simp [nulEscape]
  | case2 hi lo text ih =>
    rw [unescape_escape] at h
    obtain ⟨c, hc, hmap⟩ := Option.bind_eq_some_iff.mp h
    obtain ⟨rest, hrest, rfl⟩ := Option.map_eq_some_iff.mp hmap
    simp only [List.mem_cons, not_or] at htext
    have hnul : 0 = c ↔ hi = 48 ∧ lo = 48 := eq_comm.trans (hexPair_zero hc)
    simp [nulEscape, hnul, ih hrest htext.2.2.2]
  | case3 text hshort =>
    rcases text with _ | ⟨hi, _ | ⟨lo, text⟩⟩
    · simp [unescape] at h
    · simp [unescape] at h
    · exact absurd rfl (hshort hi lo text)
  | case4 c text hc ih =>
    simp only [List.mem_cons, not_or] at htext
    have hnext : nulEscape (c :: text) = nulEscape text := by rw [nulEscape.eq_def]; simp [hc]
    rw [hnext]
    by_cases hplus : c = 43
    · subst c
      rw [unescape_plus] at h
      obtain ⟨rest, hrest, rfl⟩ := Option.map_eq_some_iff.mp h
      simp [ih hrest htext.2]
    · rw [unescape_plain text hplus hc] at h
      obtain ⟨rest, hrest, rfl⟩ := Option.map_eq_some_iff.mp h
      simp [htext.1, ih hrest htext.2]

theorem formScan_clean {name p value : List UInt8} {n : Nat} (h : formScan name n p = some value)
    (hp : 0 ∉ p) : 0 ∉ value := by
  induction n generalizing p with
  | zero => cases h
  | succ n ih =>
    rw [formScan] at h
    split_ifs at h with hempty hmatch
    · obtain rfl := Option.some.inj h
      exact fun hmem => hp (List.mem_of_mem_drop ((List.takeWhile_prefix _).subset hmem))
    · split at h
      next => cases h
      next c next hrest =>
        refine ih h fun hmem => hp ?_
        exact (List.dropWhile_suffix _).subset (hrest ▸ List.mem_cons_of_mem _ hmem)

/-- A field that is accepted is read whole as a C string exactly when no `%00` is in it. -/
theorem decoded_whole_iff {body name value : List UInt8} {size : Nat}
    (haccepted : (provFormField body name size).2 = true)
    (hvalue : formScan (cstr name) (cstr body).length (cstr body) = some value) :
    (provUrlDecode size value).2 = some (cstr (provFormField body name size).1.toList).length ↔
      nulEscape value = false := by
  rw [provFormField] at haccepted ⊢
  split_ifs at haccepted ⊢ with hnone
  rw [hvalue] at haccepted ⊢
  dsimp only at haccepted ⊢
  rw [provUrlDecode_eq value (by omega)] at haccepted ⊢
  cases ht : unescape hexPair value with
  | none => simp [ht] at haccepted
  | some t =>
    by_cases hfits : t.length < size
    · have hclean := formScan_clean hvalue (zero_not_mem_cstr body)
      have hcut : t.length = (cstr t).length ↔ 0 ∉ t := by
        refine ⟨fun hlen hmem => ?_, fun h => by rw [cstr_eq_self h]⟩
        have hall := (List.takeWhile_prefix (l := t) (· ≠ 0)).eq_of_length hlen.symm
        exact zero_not_mem_cstr t (by rw [cstr, hall]; exact hmem)
      simp only [Option.filter, hfits, decide_true, if_true, cstr_fill hfits.le, Option.some_inj]
      rw [hcut, unescape_nul ht hclean, Bool.not_eq_true]
    · simp [ht, Option.filter, hfits] at haccepted

theorem decoded_whole_password :
    (provUrlDecode 128 (ascii "a%41+")).2 =
      some (cstr (provFormField (ascii "u=x&p=a%41+") (ascii "p") 128).1.toList).length :=
  (decoded_whole_iff (by decide +kernel) (by decide +kernel)).mpr (by decide)

/-- A password of eight bytes is read as its first five. -/
theorem nul_escape_cuts :
    (provFormField (ascii "u=x&p=admin%00xy") (ascii "p") 128).2 = true ∧
      formScan (ascii "p") 16 (ascii "u=x&p=admin%00xy") = some (ascii "admin%00xy") ∧
      (provUrlDecode 128 (ascii "admin%00xy")).2 = some 8 ∧
      (cstr (provFormField (ascii "u=x&p=admin%00xy") (ascii "p") 128).1.toList).length = 5 := by
  decide +kernel

end GateAccess
