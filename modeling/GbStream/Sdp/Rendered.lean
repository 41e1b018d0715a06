import GbStream.Sdp.Document
import GbStream.Sdp.Grammar

/-!
# Scanning well-formed lines

The parts of a line that the parsers cut out of the text of a well-formed line are the
parts it was written from.
-/

namespace GbStream.Sdp

open Support

variable {w xs : List UInt8} {c : UInt8}

/-! ## One token -/

theorem upTo_append {escape : List UInt8} (hw : ∀ c ∈ w, c ∉ escape) (hc : c ∈ escape) :
    upTo escape (w ++ c :: xs) = w := by
  rw [upTo, List.takeWhile_append_of_pos fun d hd => by simpa using hw d hd]
  simp [hc]

theorem behind_append {escape : List UInt8} (hw : ∀ c ∈ w, c ∉ escape) (hc : c ∈ escape) :
    behind escape (w ++ c :: xs) = c :: xs := by
  rw [behind, List.dropWhile_append_of_pos fun d hd => by simpa using hw d hd]
  simp [hc]

theorem skipBlanks_cons (h : ¬ Text.isBlank c) : skipBlanks (c :: xs) = c :: xs :=
  List.dropWhile_cons_of_neg h

theorem skipBlanks_append (hw : ∀ c ∈ w.head?, ¬ Text.isBlank c) (hc : ¬ Text.isBlank c) :
    skipBlanks (w ++ c :: xs) = w ++ c :: xs := by
  cases w with
  | nil => exact skipBlanks_cons hc
  | cons d w => exact skipBlanks_cons (hw d rfl)

theorem isBlank_iff : Text.isBlank c ↔ c = space ∨ c = tab := by
  simp [Text.isBlank]

theorem Word.mem (h : Word w) : ∀ c ∈ w, c ≠ 0 ∧ c ∉ blankEol := by
  intro c hc
  exact of_decide_eq_true (List.all_eq_true.mp h.2 c hc)

theorem Value.mem (h : Value w) : ∀ c ∈ w, c ≠ 0 ∧ c ∉ eol := by
  intro c hc
  exact of_decide_eq_true (List.all_eq_true.mp h.1 c hc)

theorem Value.head (h : Value w) : ∀ c ∈ w.head?, ¬ Text.isBlank c := by
  intro c hc hblank
  exact h.2.1 ((Option.any_eq_true _ _).mpr ⟨c, hc, hblank⟩)

theorem Value.last (h : Value w) : ∀ c ∈ w.getLast?, ¬ Text.isBlank c := by
  intro c hc hblank
  exact h.2.2 ((Option.any_eq_true _ _).mpr ⟨c, hc, hblank⟩)

theorem Word.not_blank (h : Word w) : ∀ c ∈ w, ¬ Text.isBlank c := by
  intro c hc hblank
  have hmem := (h.mem c hc).2
  rcases isBlank_iff.mp hblank with rfl | rfl <;> exact hmem (by decide)

theorem Word.value (h : Word w) : Value w := by
  refine ⟨List.all_eq_true.mpr fun c hc => decide_eq_true ?_, ?_, ?_⟩
  · refine ⟨(h.mem c hc).1, fun heol => (h.mem c hc).2 ?_⟩
    simp only [eol, List.mem_cons, List.not_mem_nil, or_false] at heol
    rcases heol with rfl | rfl <;> decide
  · intro hany
    obtain ⟨c, hc, hblank⟩ := (Option.any_eq_true _ _).mp hany
    exact h.not_blank c (List.mem_of_mem_head? hc) hblank
  · intro hany
    obtain ⟨c, hc, hblank⟩ := (Option.any_eq_true _ _).mp hany
    exact h.not_blank c (List.mem_of_getLast? hc) hblank

theorem Word.skipBlanks (h : Word w) (xs : List UInt8) : skipBlanks (w ++ xs) = w ++ xs := by
  cases w with
  | nil => exact absurd rfl h.1
  | cons c w => exact skipBlanks_cons (h.value.head c rfl)

theorem wordAt_append (h : Word w) (hc : c ∈ blankEol) : wordAt (w ++ c :: xs) = w := by
  rw [wordAt, h.skipBlanks]
  exact upTo_append (fun d hd => (h.mem d hd).2) hc

theorem afterWord_append (h : Word w) (hc : c ∈ blankEol) :
    afterWord (w ++ c :: xs) = c :: xs := by
  rw [afterWord, h.skipBlanks]
  exact behind_append (fun d hd => (h.mem d hd).2) hc

theorem skipBlanks_space (xs : List UInt8) : skipBlanks (space :: xs) = skipBlanks xs :=
  List.dropWhile_cons_of_pos (by decide)

theorem wordAt_space (xs : List UInt8) : wordAt (space :: xs) = wordAt xs := by
  rw [wordAt, skipBlanks_space, wordAt]

theorem afterWord_space (xs : List UInt8) : afterWord (space :: xs) = afterWord xs := by
  rw [afterWord, skipBlanks_space, afterWord]

theorem skipBlanks_cr (xs : List UInt8) : skipBlanks (cr :: xs) = cr :: xs :=
  skipBlanks_cons (by decide)

theorem afterWord_cr (xs : List UInt8) : afterWord (cr :: xs) = cr :: xs := by
  rw [afterWord, skipBlanks_cr]
  rfl

/-! ## The rest of a line -/

theorem trimmed_value (h : Value w) : trimmed w = w := by
  rw [trimmed, List.rdropWhile_eq_self_iff]
  intro hne hlast
  have hspace : w.getLast hne = space := by simpa using hlast
  exact h.last _ (List.getLast?_eq_some_getLast hne) (isBlank_iff.mpr (.inl hspace))

theorem upTo_value (h : Value w) : upTo eol (w ++ cr :: xs) = w :=
  upTo_append (fun d hd => (h.mem d hd).2) (by decide)

theorem behind_value (h : Value w) : behind eol (w ++ cr :: xs) = cr :: xs :=
  behind_append (fun d hd => (h.mem d hd).2) (by decide)

theorem skipBlanks_value (h : Value w) (hc : ¬ Text.isBlank c) :
    skipBlanks (w ++ c :: xs) = w ++ c :: xs :=
  skipBlanks_append h.head hc

theorem restAt_value (h : Value w) : restAt (w ++ cr :: xs) = w := by
  rw [restAt, skipBlanks_value h (by decide), upTo_value h, trimmed_value h]

theorem afterRest_value (h : Value w) : afterRest (w ++ cr :: xs) = cr :: xs := by
  rw [afterRest, skipBlanks_value h (by decide), behind_value h]

theorem restAt_space (xs : List UInt8) : restAt (space :: xs) = restAt xs := by
  rw [restAt, skipBlanks_space, restAt]

theorem afterRest_space (xs : List UInt8) : afterRest (space :: xs) = afterRest xs := by
  rw [afterRest, skipBlanks_space, afterRest]

/-! ## Around a colon -/

theorem Name.not_mem (h : Name w) : ∀ c ∈ w, c ∉ colonEol := by
  intro c hc hmem
  have heol := (h.1.mem c hc).2
  simp only [colonEol, List.mem_cons, List.not_mem_nil, or_false] at hmem
  rcases hmem with rfl | rfl | rfl
  · exact h.2 hc
  · exact heol (by decide)
  · exact heol (by decide)

theorem nameAt_append (h : Name w) (hc : c ∈ colonEol) (hblank : ¬ Text.isBlank c) :
    nameAt (w ++ c :: xs) = w := by
  rw [nameAt, skipBlanks_value h.1 hblank, upTo_append h.not_mem hc, trimmed_value h.1]

theorem nameAt_withColon {value : Option (List UInt8)} (h : Name w) :
    nameAt (withColon w value ++ cr :: xs) = w := by
  cases value with
  | none => exact nameAt_append h (by decide) (by decide)
  | some v =>
      rw [withColon, List.append_assoc]
      exact nameAt_append h (by decide) (by decide)

theorem afterColon_withColon {value : Option (List UInt8)} (h : Name w) :
    afterColon (withColon w value ++ cr :: xs) = value.getD [] ++ cr :: xs := by
  cases value with
  | none =>
      rw [withColon, afterColon, skipBlanks_value h.1 (by decide),
        behind_append h.not_mem (by decide)]
      rfl
  | some v =>
      rw [withColon, List.append_assoc, List.cons_append, afterColon,
        skipBlanks_value h.1 (by decide), behind_append h.not_mem (by decide)]
      rfl

/-! ## Words -/

theorem afterWords_space (n : Nat) (xs : List UInt8) :
    afterWords (n + 1) (space :: xs) = afterWords (n + 1) xs := by
  rw [afterWords, afterWords, afterWord_space]

theorem afterWords_cr (n : Nat) (xs : List UInt8) : afterWords n (cr :: xs) = cr :: xs := by
  induction n with
  | zero => rfl
  | succ n ih => rw [afterWords, afterWord_cr, ih]

theorem wordsAt_space (n : Nat) (xs : List UInt8) :
    wordsAt n (space :: xs) = wordsAt n xs := by
  cases n with
  | zero => rfl
  | succ n => rw [wordsAt, wordsAt, wordAt_space, afterWord_space]

theorem spaced_cons_append (w : List UInt8) (ws : List (List UInt8)) (hne : ws ≠ []) :
    spaced (w :: ws) ++ cr :: xs = w ++ space :: (spaced ws ++ cr :: xs) := by
  cases ws with
  | nil => exact absurd rfl hne
  | cons w' ws =>
      rw [spaced, List.append_assoc, List.cons_append]
      exact fun h => nomatch h

theorem afterWords_spaced (ws : List (List UInt8)) :
    ∀ n, (∀ w ∈ ws, Word w) → ws.length ≤ n →
      afterWords n (spaced ws ++ cr :: xs) = cr :: xs := by
  induction ws with
  | nil => exact fun n _ _ => afterWords_cr n xs
  | cons w ws ih =>
      intro n hws hn
      obtain ⟨n, rfl⟩ := Nat.exists_eq_add_of_le' (Nat.le_trans (Nat.succ_pos _) hn)
      have hw : Word w := hws w (List.mem_cons_self ..)
      by_cases hnil : ws = []
      · subst hnil
        rw [spaced, afterWords, afterWord_append hw (by decide), afterWords_cr]
      · rw [spaced_cons_append w ws hnil, afterWords, afterWord_append hw (by decide)]
        have hpos : 0 < ws.length := List.length_pos_iff.mpr hnil
        simp only [List.length_cons] at hn
        obtain ⟨n, rfl⟩ := Nat.exists_eq_add_of_le' (show 1 ≤ n by omega)
        rw [afterWords_space]
        exact ih _ (fun w hw => hws w (List.mem_cons_of_mem _ hw)) (by omega)

theorem wordsAt_spaced (ws : List (List UInt8)) :
    ∀ n, (∀ w ∈ ws, Word w) → n ≤ ws.length →
      wordsAt n (spaced ws ++ cr :: xs) = ws.take n := by
  induction ws with
  | nil =>
      intro n _ hn
      obtain rfl : n = 0 := Nat.le_zero.mp hn
      rfl
  | cons w ws ih =>
      intro n hws hn
      cases n with
      | zero => rfl
      | succ n =>
          have hw : Word w := hws w (List.mem_cons_self ..)
          have hn' : n ≤ ws.length := Nat.le_of_succ_le_succ hn
          by_cases hnil : ws = []
          · subst hnil
            obtain rfl : n = 0 := Nat.le_zero.mp hn'
            rw [spaced, wordsAt, wordAt_append hw (by decide)]
            rfl
          · rw [spaced_cons_append w ws hnil, wordsAt, wordAt_append hw (by decide),
              afterWord_append hw (by decide), wordsAt_space,
              ih n (fun w hw => hws w (List.mem_cons_of_mem _ hw)) hn', List.take_succ_cons]

/-! ## Numbers -/

theorem le_foldl_digits (digits : List UInt8) :
    ∀ v : Nat, v ≤ digits.foldl (fun v c => v * 10 + (c.toNat - 48)) v := by
  induction digits with
  | nil => exact fun _ => Nat.le_refl _
  | cons c digits ih =>
      intro v
      exact Nat.le_trans (by omega) (ih (v * 10 + (c.toNat - 48)))

theorem foldl_digits (digits : List UInt8) :
    ∀ v : Nat, (∀ c ∈ digits, isDigit c) →
      digits.foldl (fun v c => v * 10 + (c.toNat - 48)) v < 2147483648 →
      digits.foldl (fun (v : Int) c => Bytes.toS32 (v * 10 + (c.toNat - 48 : Int))) v =
        (digits.foldl (fun v c => v * 10 + (c.toNat - 48)) v : Nat) := by
  induction digits with
  | nil => exact fun _ _ _ => rfl
  | cons c digits ih =>
      intro v hdigits hfits
      have hc : 48 ≤ c.toNat := by
        have hdigit := hdigits c (List.mem_cons_self ..)
        simp only [isDigit, decide_eq_true_eq] at hdigit
        exact UInt8.le_iff_toNat_le.mp hdigit.1
      have hle := le_foldl_digits digits (v * 10 + (c.toNat - 48))
      rw [List.foldl_cons] at hfits
      have hstep : Bytes.toS32 ((v : Int) * 10 + (c.toNat - 48 : Int)) =
          ((v * 10 + (c.toNat - 48) : Nat) : Int) := by
        rw [Bytes.toS32_of_bounds (by omega) (by omega)]
        omega
      rw [List.foldl_cons, List.foldl_cons, hstep]
      exact ih _ (fun d hd => hdigits d (List.mem_cons_of_mem _ hd)) hfits

theorem digitsValue_eq {digits : List UInt8} (hdigits : ∀ c ∈ digits, isDigit c)
    (hfits : numeral digits < 2147483648) : digitsValue digits = numeral digits :=
  foldl_digits digits 0 hdigits hfits

theorem skipBlanks_digits {digits : List UInt8} (hdigits : ∀ c ∈ digits, isDigit c) :
    skipBlanks (digits ++ cr :: xs) = digits ++ cr :: xs := by
  apply skipBlanks_append _ (by decide)
  intro c hc hblank
  have hdigit := hdigits c (List.mem_of_mem_head? hc)
  rcases isBlank_iff.mp hblank with rfl | rfl <;> exact absurd hdigit (by decide)

theorem takeWhile_digits {digits : List UInt8} (hdigits : ∀ c ∈ digits, isDigit c) :
    (digits ++ cr :: xs).takeWhile isDigit = digits := by
  rw [List.takeWhile_append_of_pos hdigits]
  simp [show isDigit cr = false from rfl]

theorem dropWhile_digits {digits : List UInt8} (hdigits : ∀ c ∈ digits, isDigit c) :
    (digits ++ cr :: xs).dropWhile isDigit = cr :: xs := by
  rw [List.dropWhile_append_of_pos hdigits]
  simp [show isDigit cr = false from rfl]

/-! ## The head and the end of a line -/

theorem lineEnd_crlf (xs : List UInt8) : lineEnd (cr :: lf :: xs) = some xs := rfl

theorem letter_not_blank (line : Line) : ¬ Text.isBlank line.letter := by
  cases line <;> exact Bool.false_ne_true

theorem skipBlanks_spaced (h : Word w) (ws : List (List UInt8)) (xs : List UInt8) :
    skipBlanks (spaced (w :: ws) ++ xs) = spaced (w :: ws) ++ xs := by
  cases ws with
  | nil => exact h.skipBlanks xs
  | cons w' ws =>
      rw [spaced, List.append_assoc]
      · exact h.skipBlanks _
      · exact fun hnil => nomatch hnil

theorem skipBlanks_withColon (h : Name w) (value : Option (List UInt8)) (xs : List UInt8) :
    skipBlanks (withColon w value ++ cr :: xs) = withColon w value ++ cr :: xs := by
  cases value with
  | none => exact skipBlanks_value h.1 (by decide)
  | some v =>
      rw [withColon, List.append_assoc]
      exact skipBlanks_value h.1 (by decide)

theorem skipBlanks_body {line : Line} (h : line.WellFormed) (xs : List UInt8) :
    skipBlanks (line.body ++ cr :: xs) = line.body ++ cr :: xs := by
  cases line with
  | version digits => exact skipBlanks_digits (List.all_eq_true.mp h.1)
  | origin a b c d e f => exact skipBlanks_spaced (h a (List.mem_cons_self ..)) _ _
  | connection a b c => exact skipBlanks_spaced (h a (List.mem_cons_self ..)) _ _
  | timing a b => exact skipBlanks_spaced (h a (List.mem_cons_self ..)) _ _
  | media m => exact skipBlanks_spaced (h.1 _ (List.mem_cons_self ..)) _ _
  | bandwidth a b => exact skipBlanks_withColon h.1 (some b) _
  | encryption a key => exact skipBlanks_withColon h.1 key _
  | «attribute» a value => exact skipBlanks_withColon h.1 value _
  | _ => exact skipBlanks_value h (by decide)

theorem render_append (line : Line) (xs : List UInt8) :
    line.render ++ xs = line.letter :: byte '=' :: (line.body ++ cr :: lf :: xs) := by
  simp [Line.render]

/-- The head of a line that was written down, whatever comes behind it. -/
theorem lineHead_render {line : Line} (h : line.WellFormed) (xs : List UInt8) :
    lineHead (line.render ++ xs) = .ok (line.letter, line.body ++ cr :: lf :: xs) := by
  rw [render_append, lineHead, skipBlanks_cons (letter_not_blank line)]
  dsimp only
  rw [skipBlanks_cons (by decide)]
  dsimp only
  rw [if_pos rfl, skipBlanks_body h]

end GbStream.Sdp
