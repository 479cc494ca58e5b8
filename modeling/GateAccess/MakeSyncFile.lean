import GateAccess.SyncFormat

namespace GateAccess

/-- A code as the signing tool is given it, already hashed. -/
structure FileCode where
  id : List UInt8
  digest : Bytes acHashLen
  start : Int
  finish : Int

def FileCode.line (c : FileCode) : List UInt8 :=
  ascii "code " ++ [32].intercalate [c.id, hexText c.digest.toList, decimalInt c.start,
    decimalInt c.finish]

/-- `make_sync_file.py` with its key behind `sign`; none where it exits with an error. -/
def makeSyncFile (sign : List UInt8 → Bytes 64) (gate : List UInt8) (gen : Int)
    (codes : List FileCode) : Option (List UInt8) :=
  if !codes.all fun c => checkId c.id then none
  else
    let lines := [ascii "portao-sync v1", ascii "gate " ++ gate, ascii "gen " ++ decimalInt gen] ++
      codes.map FileCode.line ++ [ascii "end"]
    let signed := [newline].intercalate lines ++ [newline]
    some (signed ++ ascii "mac " ++ (sign signed).toList ++ [newline])

/-- The set the tool's inputs stand for. -/
def FileCode.entry (c : FileCode) : SyncEntry := ⟨fill _ c.id, c.digest, c.start, c.finish⟩

/-- A numeral the device reads: 19 characters and `int64_t`. -/
def NumeralFits (n : Int) : Prop := (decimalInt n).length ≤ 19 ∧ -(2 ^ 63) ≤ n ∧ n < 2 ^ 63

structure FileCode.Fits (c : FileCode) : Prop where
  start : NumeralFits c.start
  finish : NumeralFits c.finish
  window : c.start ≤ c.finish

theorem NumeralFits.numeral {n : Int} (h : NumeralFits n) : I64Numeral (decimalInt n) n :=
  ⟨decimalInt_numeral n, h⟩

theorem FileCode.Fits.format {c : FileCode} (h : c.Fits) (hid : checkId c.id = true) :
    CodeFormat c.line c.entry :=
  ⟨c.id, decimalInt c.start, decimalInt c.finish, rfl, hexId_checkId hid, h.start.numeral,
    h.finish.numeral, h.window⟩

theorem unlines_eq_intercalate {ls : List (List UInt8)} (h : ls ≠ []) :
    unlines ls = [newline].intercalate ls ++ [newline] := by
  induction ls with
  | nil => exact absurd rfl h
  | cons l ls ih =>
    cases ls with
    | nil => simp [unlines]
    | cons m ms =>
      rw [unlines_cons, ih (by simp), List.intercalate_cons_cons]
      simp

/-- The text of the file the tool writes. -/
theorem makeSyncFile_some {sign : List UInt8 → Bytes 64} {gate file : List UInt8} {gen : Int}
    {codes : List FileCode} (h : makeSyncFile sign gate gen codes = some file) :
    (∀ c ∈ codes, checkId c.id = true) ∧
      file = syncRegion gate (decimalInt gen) (codes.map FileCode.line) ++ ascii "mac " ++
        (sign (syncRegion gate (decimalInt gen) (codes.map FileCode.line))).toList ++ [newline] := by
  unfold makeSyncFile at h
  dsimp only at h
  split_ifs at h with hids
  obtain rfl := Option.some.inj h
  rw [← unlines_eq_intercalate (by simp)]
  exact ⟨by simpa using hids, rfl⟩

theorem forall₂_lines {codes : List FileCode} (hids : ∀ c ∈ codes, checkId c.id = true)
    (hfits : ∀ c ∈ codes, c.Fits) :
    List.Forall₂ CodeFormat (codes.map FileCode.line) (codes.map FileCode.entry) := by
  induction codes with
  | nil => exact .nil
  | cons c codes ih =>
    refine .cons ((hfits c List.mem_cons_self).format (hids c List.mem_cons_self)) ?_
    exact ih (fun d hd => hids d (List.mem_cons_of_mem _ hd)) fun d hd => hfits d (List.mem_cons_of_mem _ hd)

theorem zero_not_mem_unlines {ls : List (List UInt8)} (h : ∀ l ∈ ls, 0 ∉ l) : 0 ∉ unlines ls := by
  simp only [unlines, List.mem_flatMap, not_exists, not_and]
  intro l hl hz
  rcases List.mem_append.mp hz with hz | hz
  · exact h l hl hz
  · exact absurd hz (by decide)

theorem FileCode.line_no_zero {c : FileCode} (hid : checkId c.id = true) : 0 ∉ c.line := by
  rw [FileCode.line, List.mem_append, not_or]
  refine ⟨by decide, not_mem_intercalate (by decide) ?_⟩
  intro field hfield
  simp only [List.mem_cons, List.not_mem_nil, or_false] at hfield
  rcases hfield with rfl | rfl | rfl | rfl
  · exact not_mem_hex (by decide) (hexId_checkId hid).2.1
  · exact not_mem_hex (by decide) (hexText_isHex _)
  · exact (decimalInt_numeral _).not_mem (by decide) (by decide)
  · exact (decimalInt_numeral _).not_mem (by decide) (by decide)

/-- What the signing tool writes within the device's limits, the device reads back. -/
theorem syncParse_makeSyncFile {sign : List UInt8 → Bytes 64}
    (hsign : ∀ region, (sign region).toList.all isHex = true) {gate file : List UInt8} {gen : Int}
    {codes : List FileCode} (hfile : makeSyncFile sign gate gen codes = some file)
    (hgate : newline ∉ gate ∧ 0 ∉ gate) (hgen : 0 ≤ gen ∧ NumeralFits gen)
    (hfits : ∀ c ∈ codes, c.Fits) (hfew : codes.length ≤ syncMaxEntries)
    (hlen : file.length ≤ syncBodyMax) :
    syncParse file gate (fun region => some (sign region)) =
      (.ok, ⟨gen.toNat, codes.map FileCode.entry⟩) := by
  obtain ⟨hids, hfile⟩ := makeSyncFile_some hfile
  set region := syncRegion gate (decimalInt gen) (codes.map FileCode.line) with hregion
  have hzero : 0 ∉ region := by
    refine zero_not_mem_unlines fun l hl => ?_
    rcases List.mem_append.mp hl with hl | hl
    · rcases List.mem_append.mp hl with hl | hl
      · simp only [List.mem_cons, List.not_mem_nil, or_false] at hl
        rcases hl with rfl | rfl | rfl
        · decide
        · rw [List.mem_append, not_or]
          exact ⟨by decide, hgate.2⟩
        · rw [List.mem_append, not_or]
          exact ⟨by decide, (decimalInt_numeral gen).not_mem (by decide) (by decide)⟩
      · obtain ⟨c, hc, rfl⟩ := List.mem_map.mp hl
        exact FileCode.line_no_zero (hids c hc)
    · rw [List.mem_singleton.mp hl]
      decide
  have htext : cstr file = file := by
    refine cstr_eq_self ?_
    rw [hfile]
    simp only [List.mem_append, not_or]
    exact ⟨⟨⟨hzero, by decide⟩, not_mem_hex (by decide) (hsign region)⟩, by decide⟩
  refine (syncParse_format (fun r e he => ?_) hgate.1).mpr ?_
  · rw [← Option.some.inj he]
    exact hsign r
  · rw [htext]
    refine ⟨hlen, _, _, sign region, [newline], rfl, hfile, by simp, ?_, by simpa using hfew,
      forall₂_lines hids hfits⟩
    rw [show ((gen.toNat : Nat) : Int) = gen by omega]
    exact hgen.2.numeral

/-- The signed-set format is what `sync_parse` accepts, no less and no more, and what the tool
writes. -/
theorem syncParse_exact :
    (∀ (mac : HexMac) (body gateId : List UInt8) (set : SyncSet),
      (∀ region expected, mac region = some expected → expected.toList.all isHex = true) →
      newline ∉ gateId →
      (syncParse body gateId mac = (.ok, set) ↔ SyncFormat mac gateId (cstr body) set)) ∧
    ∀ (sign : List UInt8 → Bytes 64) (gate file : List UInt8) (gen : Int) (codes : List FileCode),
      (∀ region, (sign region).toList.all isHex = true) →
      makeSyncFile sign gate gen codes = some file → newline ∉ gate ∧ 0 ∉ gate →
      0 ≤ gen ∧ NumeralFits gen → (∀ c ∈ codes, c.Fits) → codes.length ≤ syncMaxEntries →
      file.length ≤ syncBodyMax →
      syncParse file gate (fun region => some (sign region)) =
        (.ok, ⟨gen.toNat, codes.map FileCode.entry⟩) :=
  ⟨fun _ _ _ _ hhex hgate => syncParse_format hhex hgate,
    fun _ _ _ _ _ hsign hfile hgate hgen hfits hfew hlen =>
      syncParse_makeSyncFile hsign hfile hgate hgen hfits hfew hlen⟩

def oneCodeFile : List UInt8 :=
  ascii "portao-sync v1\ngate g\ngen 7\ncode 0a1b2c3d " ++ List.replicate 64 48 ++
    ascii " -5 99\nend\nmac " ++ List.replicate 64 48 ++ [13, newline]

theorem syncParse_exact_file :
    SyncFormat (fun _ => some (List.Vector.replicate _ 48)) (ascii "g") (cstr oneCodeFile)
      ⟨7, [⟨fill _ (ascii "0a1b2c3d"), zeros _, -5, 99⟩]⟩ ∧
    syncParse (ascii "portao-sync v1\ngate g\ngen 7\nend\nmac " ++ List.replicate 64 48 ++ [newline])
      (ascii "g") (fun _ => some (List.Vector.replicate _ 48)) = (.ok, ⟨7, []⟩) := by
  constructor
  · refine (syncParse_exact.1 _ oneCodeFile (ascii "g") _ ?_ (by decide)).mp (by decide +kernel)
    intro _ _ h
    rw [← Option.some.inj h]
    decide
  · exact syncParse_exact.2 (fun _ => List.Vector.replicate _ 48) (ascii "g") _ 7 [] (fun _ => by decide)
      (by decide +kernel) (by decide) ⟨by decide, by decide, by decide, by decide⟩ (by simp) (by decide)
      (by decide)

end GateAccess
