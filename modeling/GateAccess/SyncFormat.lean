import GateAccess.SyncParse

namespace GateAccess

theorem rdropWhile_append {α : Type*} {p : α → Bool} (l : List α) {t : List α}
    (h : ∀ c ∈ t, p c = true) : (l ++ t).rdropWhile p = l.rdropWhile p := by
  induction t using List.reverseRecOn with
  | nil => rw [List.append_nil]
  | append_singleton t c ih =>
    rw [← List.append_assoc, List.rdropWhile_concat_pos _ _ _ (h c (by simp))]
    exact ih fun d hd => h d (List.mem_append_left _ hd)

/-- The MAC of a text is read whole: no hex digit is taken for a line end. -/
theorem rdropWhile_mac {mac trail : List UInt8} (hhex : mac.all isHex = true)
    (htrail : ∀ c ∈ trail, c = newline ∨ c = 13) :
    (mac ++ trail).rdropWhile (fun c => c = newline || c = 13) = mac := by
  rw [rdropWhile_append mac fun c hc => by simpa using htrail c hc, List.rdropWhile_eq_self_iff]
  intro hne hlast
  have hx := List.all_eq_true.mp hhex _ (List.getLast_mem hne)
  rcases (by simpa using hlast : mac.getLast hne = newline ∨ mac.getLast hne = 13) with he | he
  · rw [he] at hx
    revert hx
    decide
  · rw [he] at hx
    revert hx
    decide

theorem syncParse_iff {body gateId : List UInt8} {mac : HexMac} {set : SyncSet}
    (hhex : ∀ region expected, mac region = some expected → expected.toList.all isHex = true) :
    syncParse body gateId mac = (.ok, set) ↔
      (cstr body).length ≤ syncBodyMax ∧ ∃ region, signedRegion (cstr body) = some region ∧
        SignedBy mac (cstr body) region ∧ parseRegion gateId region = (.ok, set) := by
  refine ⟨syncParse_signed, ?_⟩
  rintro ⟨hlen, region, hregion, ⟨expected, trail, hmac, htext, htrail⟩, hread⟩
  have hverified : SyncVerified mac (cstr body) region :=
    ⟨hlen, hregion, expected, expected.toList ++ trail, hmac, by simpa using htext,
      rdropWhile_mac (hhex _ _ hmac) htrail⟩
  rw [syncParse_verified hverified]
  exact hread

theorem unlines_last {ls : List (List UInt8)} (h : ls ≠ []) : ∃ z, unlines ls = z ++ [newline] := by
  obtain ⟨pre, last, rfl⟩ := (List.eq_nil_or_concat ls).resolve_left h
  exact ⟨unlines pre ++ last, by simp [unlines]⟩

theorem linesOf_ne_nil {s : List UInt8} (h : s ≠ []) : linesOf s ≠ [] := by
  cases s with
  | nil => exact absurd rfl h
  | cons c cs =>
    rw [linesOf]
    split
    · simp
    · split <;> simp

theorem linesOf_append (a rest : List UInt8) :
    linesOf (a ++ newline :: rest) = linesOf (a ++ [newline]) ++ linesOf rest := by
  have hlines := linesOf_unlines (linesOf (a ++ [newline])) (fun _ hl => not_mem_linesOf hl) rest
  rwa [unlines_linesOf, List.append_assoc] at hlines

theorem linesOf_region {ls : List (List UInt8)} (h : ∀ l ∈ ls, newline ∉ l) :
    linesOf (unlines ls) = ls := by
  have := linesOf_unlines _ h []
  rwa [List.append_nil, linesOf, List.append_nil] at this

/-- The signed region stops at the first `end` line after some other line. -/
theorem signedRegion_ends {text region : List UInt8} (h : signedRegion text = some region)
    (ls after : List (List UInt8)) (hls : ls ≠ []) (hlines : linesOf region = ls ++ ascii "end" :: after) :
    after = [] ∧ region = unlines (ls ++ [ascii "end"]) := by
  obtain ⟨marker, hmarker, hr⟩ := Option.map_eq_some_iff.mp h
  obtain ⟨rest, hrest⟩ := signedRegion_split h |>.1
  obtain ⟨y, hy⟩ := signedRegion_split h |>.2
  have hregion : unlines (linesOf region) = region := by
    rw [← hy, show y ++ endMarker = (y ++ newline :: ascii "end") ++ [newline] by simp [endMarker]]
    exact unlines_linesOf _
  obtain ⟨z, hz⟩ := unlines_last hls
  have hsplit : region = z ++ (endMarker ++ unlines after) := by
    rw [← hregion, hlines, unlines_append, unlines_cons, hz]
    simp [endMarker]
  have hlen : region.length = marker + endMarker.length := by
    obtain ⟨tail, htail⟩ := strstr_some hmarker
    rw [← hr, List.length_take]
    have := congrArg List.length htail
    have h5 : endMarker.length = 5 := rfl
    simp only [List.length_append, List.length_drop] at this
    omega
  have hfirst : marker ≤ z.length := by
    by_contra hlt
    refine strstr_least hmarker z.length (by omega) ?_
    rw [← hrest, hsplit, List.append_assoc, List.drop_left' rfl, List.append_assoc]
    exact List.prefix_append _ _
  have hafter : unlines after = [] := by
    rw [hsplit] at hlen
    simp only [List.length_append] at hlen
    exact List.length_eq_zero_iff.mp (by omega)
  have hnil : after = [] := by
    cases after with
    | nil => rfl
    | cons l ls => simp at hafter
  refine ⟨hnil, ?_⟩
  rw [← hregion, hlines, hnil]

theorem signedRegion_eq {ls : List (List UInt8)} (hls : ls ≠ []) (hplain : ∀ l ∈ ls, newline ∉ l)
    (hend : ascii "end" ∉ ls) (rest : List UInt8) :
    signedRegion (unlines (ls ++ [ascii "end"]) ++ rest) = some (unlines (ls ++ [ascii "end"])) := by
  obtain ⟨z, hz⟩ := unlines_last hls
  have hregion : unlines (ls ++ [ascii "end"]) = z ++ endMarker := by
    rw [unlines_append, hz]
    simp [unlines, endMarker]
  have hlines : linesOf (z ++ endMarker) = ls ++ [ascii "end"] := by
    rw [← hregion]
    refine linesOf_region fun l hl => ?_
    rcases List.mem_append.mp hl with hl | hl
    · exact hplain l hl
    · rw [List.mem_singleton.mp hl]
      decide
  have hmarker : strstr endMarker (z ++ endMarker ++ rest) = some z.length := by
    refine strstr_eq (by simp) ?_ ?_
    · rw [List.append_assoc, List.drop_left' rfl]
      exact List.prefix_append _ _
    · rintro j hj ⟨b, hb⟩
      set text := z ++ endMarker ++ rest
      have htext : text.take j ++ endMarker ++ b = text := by
        rw [List.append_assoc, hb, List.take_append_drop]
      have hpre : text.take j ++ endMarker <+: z ++ endMarker := by
        refine List.prefix_of_prefix_length_le ⟨b, htext⟩ ⟨rest, rfl⟩ ?_
        simp only [List.length_append, List.length_take]
        omega
      obtain ⟨b', hb'⟩ := hpre
      have hb'ne : b' ≠ [] := by
        rintro rfl
        have := congrArg List.length hb'
        simp only [List.length_append, List.length_take, List.length_nil] at this
        omega
      rw [← hb', show text.take j ++ endMarker ++ b' =
        text.take j ++ newline :: (ascii "end" ++ newline :: b') by simp [endMarker],
        linesOf_append, linesOf_line (ascii "end") (by decide)] at hlines
      obtain ⟨init, last, hinit⟩ := (List.eq_nil_or_concat _).resolve_left (linesOf_ne_nil hb'ne)
      rw [hinit, List.concat_eq_append, ← List.cons_append, ← List.append_assoc] at hlines
      have hls' := (List.append_inj' hlines rfl).1
      exact hend (by rw [← hls']; simp)
  rw [hregion, signedRegion, hmarker, Option.map_some, List.take_left' (by simp)]

/-- The lines a set is signed over, each ended by a newline. -/
def syncRegion (gateId gen : List UInt8) (codes : List (List UInt8)) : List UInt8 :=
  unlines ([ascii "portao-sync v1", ascii "gate " ++ gateId, ascii "gen " ++ gen] ++ codes ++
    [ascii "end"])

/-- A code line, its four fields between single spaces. -/
def CodeFormat (line : List UInt8) (e : SyncEntry) : Prop :=
  ∃ id validFrom validUntil,
    line = ascii "code " ++ [32].intercalate [id, hexText e.hash.toList, validFrom, validUntil] ∧
    HexId id e.id ∧ I64Numeral validFrom e.validFrom ∧ I64Numeral validUntil e.validUntil ∧
    e.validFrom ≤ e.validUntil

def SyncFormat (mac : HexMac) (gateId text : List UInt8) (set : SyncSet) : Prop :=
  text.length ≤ syncBodyMax ∧ ∃ gen codes expected trail,
    mac (syncRegion gateId gen codes) = some expected ∧
    text = syncRegion gateId gen codes ++ ascii "mac " ++ expected.toList ++ trail ∧
    (∀ c ∈ trail, c = newline ∨ c = 13) ∧ I64Numeral gen set.generation ∧ codes.length ≤ syncMaxEntries ∧
    List.Forall₂ CodeFormat codes set.entries

theorem codeFormat_iff {line : List UInt8} {e : SyncEntry} : CodeFormat line e ↔ CodeLine line e := by
  constructor
  · rintro ⟨id, validFrom, validUntil, hline, hid, hf, hu, hw⟩
    exact ⟨id, _, validFrom, validUntil, hline, hid, hexToBytes_iff.mpr rfl, syncParseI64_iff.mpr hf,
      syncParseI64_iff.mpr hu, hw⟩
  · rintro ⟨id, hash, validFrom, validUntil, hline, hid, hhash, hf, hu, hw⟩
    rw [hexToBytes_iff] at hhash
    exact ⟨id, validFrom, validUntil, hhash ▸ hline, hid, syncParseI64_iff.mp hf, syncParseI64_iff.mp hu,
      hw⟩

theorem forall₂_codeFormat {codes : List (List UInt8)} {es : List SyncEntry} :
    List.Forall₂ CodeFormat codes es ↔ List.Forall₂ CodeLine codes es := by
  simp only [show CodeFormat = CodeLine from funext₂ fun _ _ => propext codeFormat_iff]

theorem CodeFormat.not_newline {line : List UInt8} {e : SyncEntry} (h : CodeFormat line e) :
    newline ∉ line := by
  obtain ⟨id, validFrom, validUntil, rfl, hid, hf, hu, _⟩ := h
  rw [List.mem_append, not_or]
  refine ⟨by decide, not_mem_intercalate (by decide) ?_⟩
  intro field hfield
  simp only [List.mem_cons, List.not_mem_nil, or_false] at hfield
  rcases hfield with rfl | rfl | rfl | rfl
  · exact not_mem_hex (by decide) hid.2.1
  · exact not_mem_hex (by decide) (hexText_isHex _)
  · exact hf.1.not_mem (by decide) (by decide)
  · exact hu.1.not_mem (by decide) (by decide)

theorem syncParse_format {body gateId : List UInt8} {mac : HexMac} {set : SyncSet}
    (hhex : ∀ region expected, mac region = some expected → expected.toList.all isHex = true)
    (hgate : newline ∉ gateId) :
    syncParse body gateId mac = (.ok, set) ↔ SyncFormat mac gateId (cstr body) set := by
  rw [syncParse_iff hhex]
  refine and_congr_right fun _ => ?_
  constructor
  · rintro ⟨region, hregion, ⟨expected, trail, hmac, htext, htrail⟩, hread⟩
    obtain ⟨gen, codes, after, hlines, hgen, hcodes, hfew⟩ := parseRegion_iff.mp hread
    obtain ⟨_, rfl⟩ := signedRegion_ends hregion
      ([ascii "portao-sync v1", ascii "gate " ++ gateId, ascii "gen " ++ gen] ++ codes) after
      (by simp) (by rw [hlines]; simp)
    exact ⟨gen, codes, expected, trail, hmac, htext, htrail, hgen,
      hcodes.length_eq.trans_le hfew, forall₂_codeFormat.mpr hcodes⟩
  · rintro ⟨gen, codes, expected, trail, hmac, htext, htrail, hgen, hfew, hcodes⟩
    set ls := [ascii "portao-sync v1", ascii "gate " ++ gateId, ascii "gen " ++ gen] ++ codes with hls
    have hcode : ∀ line ∈ codes, newline ∉ line ∧ line ≠ ascii "end" := fun line hline => by
      obtain ⟨e, _, he⟩ := forall₂_mem_right hcodes.flip line hline
      exact ⟨CodeFormat.not_newline he, code_ne_end (codeFormat_iff.mp he).isPrefix⟩
    have hplain : ∀ l ∈ ls, newline ∉ l := by
      intro l hl
      rcases List.mem_append.mp hl with hl | hl
      · simp only [List.mem_cons, List.not_mem_nil, or_false] at hl
        rcases hl with rfl | rfl | rfl
        · decide
        · rw [List.mem_append, not_or]
          exact ⟨by decide, hgate⟩
        · rw [List.mem_append, not_or]
          exact ⟨by decide, hgen.1.not_mem (by decide) (by decide)⟩
      · exact (hcode l hl).1
    have hend : ascii "end" ∉ ls := by
      intro hl
      rcases List.mem_append.mp hl with hl | hl
      · simp only [List.mem_cons, List.not_mem_nil, or_false] at hl
        rcases hl with hl | hl | hl
        · exact absurd hl (by decide)
        · have := congrArg List.head? hl
          simp [ascii] at this
        · have := congrArg List.head? hl
          simp [ascii] at this
      · exact (hcode _ hl).2 rfl
    have hregion : signedRegion (cstr body) = some (syncRegion gateId gen codes) := by
      rw [htext, List.append_assoc, List.append_assoc]
      exact signedRegion_eq (by simp [hls]) hplain hend _
    refine ⟨_, hregion, ⟨expected, trail, hmac, htext, htrail⟩, parseRegion_iff.mpr ?_⟩
    refine ⟨gen, codes, [], ?_, hgen, forall₂_codeFormat.mp hcodes, hcodes.length_eq ▸ hfew⟩
    rw [syncRegion, linesOf_region]
    · simp
    · intro l hl
      rcases List.mem_append.mp hl with hl | hl
      · exact hplain l hl
      · rw [List.mem_singleton.mp hl]
        decide

end GateAccess
