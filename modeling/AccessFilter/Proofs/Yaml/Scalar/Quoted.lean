import AccessFilter.Proofs.Yaml.Scalar.Plain
import AccessFilter.Yaml.Scalar.Quoted

/-!
# Strings between double quotes read back

Between quotes a text is read word by word, and the gap after a word is read apart. Between double
quotes every character that could be taken for something else is escaped, so all gaps are blanks.

* `quotedText_end`, `quotedText_gap`   one word: the last one, or one with a gap behind it;
* `WrittenAs`              what is written for a character, and that it reads back;
* `readDouble_written`     a string between double quotes reads back.
-/

namespace AccessFilter.Yaml

/-! ## one word -/

section
variable {quote : Char} {word : List Char → Option QuotedWord} {cs w : List Char}

theorem quotedText_end {rest : List Char} (fuel : Nat) (hcs : cs ≠ [])
    (hword : word cs = some ⟨w, false, quote :: rest⟩) :
    quotedText quote word (fuel + 1) false cs = some (w, rest) := by
  rw [quotedText, hword, List.isEmpty_eq_false_iff.mpr hcs]
  exact if_pos rfl

theorem quotedText_gap {c : Char} {r r' text rest : List Char} {g : Gap} {fuel : Nat}
    (hcs : cs ≠ []) (hword : word cs = some ⟨w, false, c :: r⟩) (hc : c ≠ quote)
    (hgap : Gap.read 0 (c :: r) = some (g, r')) (hline : (g.isBroken && g.column == 0) = false)
    (hrest : quotedText quote word fuel false r' = some (text, rest)) :
    quotedText quote word (fuel + 1) false cs = some (w ++ g.text ++ text, rest) := by
  have hafter : gapAfter ⟨w, false, c :: r⟩ = some (g.text, false, r') := by
    rw [gapAfter, hgap]
    show some (g.text, g.isBroken && g.column == 0, r') = _
    rw [hline]
  rw [quotedText, hword, List.isEmpty_eq_false_iff.mpr hcs]
  show (if c = quote then some (w, r) else
    (gapAfter ⟨w, false, c :: r⟩).bind fun x => (quotedText quote word fuel x.2.1 x.2.2).bind
      fun y => some (w ++ x.1 ++ y.1, y.2)) = _
  rw [if_neg hc, hafter]
  show (quotedText quote word fuel false r').bind (fun y => some (w ++ g.text ++ y.1, y.2)) = _
  rw [hrest]
  rfl

end

/-! ## escapes -/

theorem char_eq_of_toNat {c : Char} {n : Nat} (h : c.toNat = n) (d : Char) (hd : d.toNat = n) :
    c = d := Char.toNat_inj.mp (h.trans hd.symm)

theorem charOf?_toNat (c : Char) : charOf? c.toNat = some c := by
  have hvalid : c.toNat.isValidChar := c.valid
  rw [charOf?, dif_pos hvalid]
  exact congrArg some (Char.ext rfl)

theorem readHex_append (width value : Nat) {ds : List Char} {n : Nat} (rest : List Char)
    (h : readHex width value ds = some (n, [])) :
    readHex width value (ds ++ rest) = some (n, rest) := by
  induction width generalizing value ds with
  | zero =>
    rw [readHex, Option.some.injEq, Prod.mk.injEq] at h
    obtain ⟨rfl, rfl⟩ := h
    rfl
  | succ width ih =>
    cases ds with
    | nil => cases h
    | cons d ds =>
      rw [readHex] at h
      obtain ⟨v, hv, h⟩ := Option.bind_eq_some_iff.mp h
      rw [List.cons_append, readHex, hv]
      exact ih _ h

/-- A printable character that takes one octet. -/
def isAscii (c : Char) : Bool := 0x20 ≤ c.toNat && c.toNat ≤ 0x7E

theorem isShown_of_ascii {c : Char} (h : isAscii c = true) : isShown c = true ∧ isBreak c = false := by
  simp only [isAscii, Bool.and_eq_true, decide_eq_true_eq] at h
  constructor
  · simp [isShown, h.1, h.2]
  · simp only [isBreak, Bool.or_eq_false_iff, decide_eq_false_iff_not]
    refine ⟨⟨⟨⟨?_, ?_⟩, ?_⟩, ?_⟩, ?_⟩ <;>
    · rintro rfl
      exact absurd h (by decide)

theorem utf8Size_of_ascii {c : Char} (h : isAscii c = true) : c.utf8Size = 1 := by
  simp only [isAscii, Bool.and_eq_true, decide_eq_true_eq] at h
  exact Char.utf8Size_eq_one_iff.mpr (by
    show c.val.toNat ≤ 127
    have : c.val.toNat = c.toNat := rfl
    omega)

/-- Characters below `100` hexadecimal read back from two printable digits. -/
theorem readHex_two : ∀ n < 256, readHex 2 0 (hexUpper 2 n) = some (n, []) ∧
    (hexUpper 2 n).length = 2 ∧ (hexUpper 2 n).all isAscii = true := by decide +kernel

/-- A character that is not shown and lies above is one of three. -/
theorem not_shown_cases {c : Char} (h : isShown c = false) (hn : 0xFF < c.toNat) :
    c.toNat = 0xFEFF ∨ c.toNat = 0xFFFE ∨ c.toNat = 0xFFFF := by
  have hvalid : c.toNat < 0xD800 ∨ 0xDFFF < c.toNat ∧ c.toNat < 0x110000 := c.valid
  simp only [isShown, Bool.or_eq_false_iff, Bool.and_eq_false_iff, decide_eq_false_iff_not,
    beq_eq_false_iff_ne] at h
  omega

theorem readHex_four {n : Nat} (h : n = 0xFEFF ∨ n = 0xFFFE ∨ n = 0xFFFF) :
    readHex 4 0 (hexUpper 4 n) = some (n, []) ∧ (hexUpper 4 n).length = 4 ∧
      (hexUpper 4 n).all isAscii = true := by
  rcases h with rfl | rfl | rfl <;> decide +kernel

/-- An escape with digits is read as the character of its number. -/
theorem readEscape_hex {e : Char} {width : Nat} (he : escapeWidth? e = some width) {c : Char}
    {ds : List Char} (rest : List Char) (h : readHex width 0 ds = some (c.toNat, [])) :
    readEscape (e :: ds ++ rest) = some (c, rest) := by
  rw [List.cons_append, readEscape, he]
  show ((readHex width 0 (ds ++ rest)).bind fun p => (charOf? p.1).bind fun c => some (c, p.2)) = _
  rw [readHex_append width 0 rest h]
  show ((charOf? c.toNat).bind fun c => some (c, rest)) = _
  rw [charOf?_toNat]
  rfl

/-- A character between double quotes stands for itself, or a backslash and printable characters that
read as this character. -/
inductive WrittenAs (c : Char) : List Char → Prop
  | itself (shown : isShown c = true) (line : isBreak c = false) (quote : c ≠ '"')
      (backslash : c ≠ '\\') : WrittenAs c [c]
  | escape (e : Char) (es : List Char) (ascii : ∀ d ∈ e :: es, isAscii d = true)
      (size : es.length + 2 ≤ 4 * c.utf8Size)
      (reads : ∀ rest, readEscape (e :: es ++ rest) = some (c, rest)) :
      WrittenAs c ('\\' :: e :: es)

theorem WrittenAs.ite {c : Char} {p : Prop} [Decidable p] {as bs : List Char}
    (pos : p → WrittenAs c as) (neg : ¬p → WrittenAs c bs) : WrittenAs c (if p then as else bs) := by
  by_cases h : p
  · rw [if_pos h]
    exact pos h
  · rw [if_neg h]
    exact neg h

/-- A character with the number of another that a backslash and one letter stand for. -/
theorem WrittenAs.letter {c : Char} {n : Nat} (d e : Char) (hd : d.toNat = n)
    (he : isAscii e = true) (reads : ∀ rest, readEscape (e :: rest) = some (d, rest))
    (h : c.toNat = n) : WrittenAs c ['\\', e] := by
  refine .escape e [] (by simpa using he) ?_ (char_eq_of_toNat h d hd ▸ reads)
  have := c.utf8Size_pos
  show 2 ≤ _
  omega

theorem writtenAs_writtenEscape (c : Char) : WrittenAs c (writtenEscape c) := by
  have hpos := c.utf8Size_pos
  rw [writtenEscape]
  refine .ite (.letter '\x00' '0' rfl rfl fun _ => rfl) fun _ => ?_
  refine .ite (.letter '\x07' 'a' rfl rfl fun _ => rfl) fun _ => ?_
  refine .ite (.letter '\x08' 'b' rfl rfl fun _ => rfl) fun _ => ?_
  refine .ite (.letter '\t' 't' rfl rfl fun _ => rfl) fun _ => ?_
  refine .ite (.letter '\n' 'n' rfl rfl fun _ => rfl) fun hfeed => ?_
  refine .ite (.letter '\x0b' 'v' rfl rfl fun _ => rfl) fun _ => ?_
  refine .ite (.letter '\x0c' 'f' rfl rfl fun _ => rfl) fun _ => ?_
  refine .ite (.letter '\r' 'r' rfl rfl fun _ => rfl) fun hreturn => ?_
  refine .ite (.letter '\x1b' 'e' rfl rfl fun _ => rfl) fun _ => ?_
  refine .ite (fun h => .letter '"' '"' rfl rfl (fun _ => rfl) (congrArg Char.toNat h))
    fun hquote => ?_
  refine .ite (fun h => .letter '\\' '\\' rfl rfl (fun _ => rfl) (congrArg Char.toNat h))
    fun hbackslash => ?_
  refine .ite (.letter '\x85' 'N' rfl rfl fun _ => rfl) fun hline => ?_
  refine .ite (.letter '\u2028' 'L' rfl rfl fun _ => rfl) fun hls => ?_
  refine .ite (.letter '\u2029' 'P' rfl rfl fun _ => rfl) fun hps => ?_
  refine .ite (fun hshown => .itself hshown ?_ hquote hbackslash) fun hshown => ?_
  · simp only [isBreak, Bool.or_eq_false_iff, decide_eq_false_iff_not]
    exact ⟨⟨⟨⟨fun h => hfeed (congrArg Char.toNat h), fun h => hreturn (congrArg Char.toNat h)⟩,
      fun h => hline (congrArg Char.toNat h)⟩, fun h => hls (congrArg Char.toNat h)⟩,
      fun h => hps (congrArg Char.toNat h)⟩
  · -- two digits up to `FF`, and four for the three characters above that are not shown
    have hnot : isShown c = false := Bool.eq_false_iff.mpr hshown
    refine .ite (fun h => ?_) fun h => ?_
    · obtain ⟨hread, hlength, hascii⟩ := readHex_two c.toNat (Nat.lt_succ_of_le h)
      refine .escape 'x' _ (List.forall_mem_cons.mpr ⟨rfl, List.all_eq_true.mp hascii⟩) ?_
        fun rest => readEscape_hex rfl rest hread
      rw [hlength]
      omega
    · have hcases := not_shown_cases hnot (Nat.lt_of_not_le h)
      obtain ⟨hread, hlength, hascii⟩ := readHex_four hcases
      rw [if_pos (by omega)]
      refine .escape 'u' _ (List.forall_mem_cons.mpr ⟨rfl, List.all_eq_true.mp hascii⟩) ?_
        fun rest => readEscape_hex rfl rest hread
      have hmany : c.utf8Size ≠ 1 := by
        intro hone
        have hval : c.val.toNat ≤ 127 := Char.utf8Size_eq_one_iff.mp hone
        have : c.val.toNat = c.toNat := rfl
        omega
      rw [hlength]
      omega

/-- What is written for a character is shown and stays on the line. -/
theorem writtenEscape_shown {c d : Char} (h : d ∈ writtenEscape c) :
    isShown d = true ∧ isBreak d = false := by
  have hw := writtenAs_writtenEscape c
  generalize writtenEscape c = written at hw h
  cases hw with
  | itself shown line =>
    rw [List.mem_singleton.mp h]
    exact ⟨shown, line⟩
  | escape e es ascii =>
    rcases List.mem_cons.mp h with rfl | hd
    · exact ⟨rfl, rfl⟩
    · exact isShown_of_ascii (ascii d hd)

theorem octetCount_of_ascii {cs : List Char} (h : ∀ c ∈ cs, isAscii c = true) :
    octetCount cs = cs.length := by
  induction cs with
  | nil => rfl
  | cons c cs ih =>
    obtain ⟨hc, hcs⟩ := List.forall_mem_cons.mp h
    rw [octetCount_cons, utf8Size_of_ascii hc, ih hcs, List.length_cons, Nat.add_comm]

theorem octetCount_writtenEscape (c : Char) : octetCount (writtenEscape c) ≤ 4 * c.utf8Size := by
  have hpos := c.utf8Size_pos
  have hw := writtenAs_writtenEscape c
  generalize writtenEscape c = written at hw ⊢
  cases hw with
  | itself =>
    rw [octetCount_cons]
    show c.utf8Size + 0 ≤ _
    omega
  | escape e es ascii size =>
    rw [octetCount_cons, octetCount_of_ascii ascii, List.length_cons]
    show 1 + (es.length + 1) ≤ _
    omega

/-! ## between double quotes -/

theorem flatMap_writtenEscape_blanks (k : Nat) (r : List Char) :
    (blanks k ++ r).flatMap writtenEscape = blanks k ++ r.flatMap writtenEscape := by
  induction k with
  | zero => rfl
  | succ k ih =>
    show writtenEscape ' ' ++ (blanks k ++ r).flatMap writtenEscape = _
    rw [ih]
    rfl

/-- What stands behind the blanks of a gap is no gap. -/
theorem writtenEscape_head {r : List Char} (h : r.head? ≠ some ' ') (tail : List Char) :
    ∃ d ds, r.flatMap writtenEscape ++ '"' :: tail = d :: ds ∧ isGap d = false := by
  cases r with
  | nil => exact ⟨'"', tail, rfl, by decide⟩
  | cons c r =>
    have hc : c ≠ ' ' := fun e => h (congrArg some e)
    rw [List.flatMap_cons]
    have hw := writtenAs_writtenEscape c
    generalize writtenEscape c = written at hw ⊢
    cases hw with
    | itself shown line => exact ⟨c, _, rfl, not_gap_of_shown shown line hc⟩
    | escape e es => exact ⟨'\\', _, rfl, by decide⟩

/-- A word goes up to the next blank or to the closing quote. -/
theorem doubleWord_written (tail : List Char) {w r : List Char} (hw : ∀ c ∈ w, c ≠ ' ')
    (hr : ∀ c, r.head? = some c → c = ' ') {fuel : Nat} (hfuel : w.length < fuel) :
    doubleWord fuel ((w ++ r).flatMap writtenEscape ++ '"' :: tail)
      = some ⟨w, false, r.flatMap writtenEscape ++ '"' :: tail⟩ := by
  induction w generalizing fuel with
  | nil =>
    obtain ⟨fuel, rfl⟩ : ∃ f, fuel = f + 1 := ⟨fuel - 1, by omega⟩
    cases r with
    | nil => rfl
    | cons c r =>
      rw [hr c rfl]
      rfl
  | cons c w ih =>
    obtain ⟨fuel, rfl⟩ : ∃ f, fuel = f + 1 := ⟨fuel - 1, by omega⟩
    obtain ⟨hc, hw⟩ := List.forall_mem_cons.mp hw
    have hrest := ih hw (Nat.lt_of_succ_lt_succ hfuel)
    rw [List.cons_append, List.flatMap_cons, List.append_assoc]
    have hwritten := writtenAs_writtenEscape c
    generalize writtenEscape c = written at hwritten ⊢
    cases hwritten with
    | itself shown line quote backslash =>
      rw [List.singleton_append, doubleWord, decide_eq_false quote,
        not_gap_of_shown shown line hc, Bool.false_or, if_neg Bool.false_ne_true, hrest]
      · rfl
      · exact backslash
    | escape e es ascii size reads =>
      show (if isBreak e = true then some _ else
        (readEscape (e :: es ++ _)).bind fun p => (doubleWord fuel p.2).bind fun w =>
          some { w with text := p.1 :: w.text }) = _
      rw [(isShown_of_ascii (ascii e List.mem_cons_self)).2, if_neg Bool.false_ne_true, reads]
      show ((doubleWord fuel _).bind fun w => some { w with text := c :: w.text }) = _
      rw [hrest]
      rfl

theorem quotedText_double (tail : List Char) {cs : List Char} {fuel n : Nat} (hn : cs.length < n)
    (hfuel : cs.length < fuel) :
    quotedText '"' (doubleWord n) fuel false (cs.flatMap writtenEscape ++ '"' :: tail)
      = some (cs, tail) := by
  -- by induction on the length: what is left behind a word and its gap is shorter
  induction hlen : cs.length using Nat.strongRecOn generalizing cs fuel with
  | _ m ih =>
    obtain ⟨fuel, rfl⟩ : ∃ f, fuel = f + 1 := ⟨fuel - 1, by omega⟩
    obtain ⟨w, r, rfl, hw, hr⟩ := exists_word cs
    rw [List.length_append] at hn hfuel hlen
    have hword := doubleWord_written tail hw hr (show w.length < n by omega)
    have hne : (w ++ r).flatMap writtenEscape ++ '"' :: tail ≠ [] := by simp
    cases r with
    | nil => rw [quotedText_end fuel hne hword, List.append_nil]
    | cons c r =>
      obtain rfl : c = ' ' := hr c rfl
      obtain ⟨k, r, rfl, hhead⟩ := exists_blanks r
      have hblanks : ' ' :: (blanks k ++ r) = blanks (k + 1) ++ r := rfl
      obtain ⟨d, ds, hd, hgap⟩ := writtenEscape_head hhead tail
      rw [hblanks] at hn hfuel hlen hword hne ⊢
      rw [flatMap_writtenEscape_blanks (k + 1), List.append_assoc] at hword
      rw [List.length_append, blanks, List.length_replicate] at hn hfuel hlen
      have hrest := ih r.length (by omega) (by omega) (show r.length < fuel by omega) rfl
      have hread := read_blanks 0 (k + 1) ds hgap
      rw [← hd] at hread
      rw [quotedText_gap hne hword (by decide) hread rfl hrest]
      show some (w ++ blanks (k + 1) ++ r, tail) = _
      rw [List.append_assoc]

/-- **A string between double quotes reads back.** -/
theorem readDouble_written (cs tail : List Char) {fuel : Nat} (hfuel : cs.length < fuel) :
    readDouble fuel (cs.flatMap writtenEscape ++ '"' :: tail) = some (cs, tail) :=
  quotedText_double tail hfuel hfuel

end AccessFilter.Yaml
