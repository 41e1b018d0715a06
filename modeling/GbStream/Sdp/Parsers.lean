import GbStream.Sdp.Lines

/-!
# What each parser does

One lemma for each line parser: when it fails, and else what it leaves to read, which
tokens it has cut, and which fields it has changed.
-/

namespace GbStream.Sdp

open Support Support.CString

variable {t : Text} {sdp : Session} {xs : List UInt8}

@[simp] theorem ok_bind {ε α β : Type} (a : α) (f : α → Except ε β) :
    (Except.ok a >>= f) = f a := rfl

@[simp] theorem error_bind {ε α β : Type} (e : ε) (f : α → Except ε β) :
    (Except.error e >>= f) = .error e := rfl

theorem Outcome.bind_failed {α β : Type} {r : Except Stop α} {rest? : Option (List UInt8)}
    {P : List UInt8 → α → Prop} {f : α → Except Stop β} {Q : List UInt8 → β → Prop}
    (h : Outcome r rest? P) (hf : ∀ a, f a = .error .failed) : Outcome (r >>= f) none Q := by
  cases h with
  | fails hr =>
      subst hr
      exact .fails rfl
  | leaves hr hP =>
      subst hr
      exact .fails (hf _)

/-! ## Lines of words -/

def wordsAt : Nat → List UInt8 → List (List UInt8)
  | 0, _ => []
  | n + 1, xs => wordAt xs :: wordsAt n (afterWord xs)

def afterWords : Nat → List UInt8 → List UInt8
  | 0, xs => xs
  | n + 1, xs => afterWords n (afterWord xs)

theorem parseOrigin_outcome (h : At sdp.text xs) :
    Outcome (parseOrigin sdp)
      (if ∀ w ∈ wordsAt 6 xs, w ≠ [] then lineEnd (afterWords 6 xs) else none)
      fun rest sdp' => ∃ v a b c d e f,
        Closed sdp.text v (afterWords 6 xs) rest [a, b, c, d, e, f] (wordsAt 6 xs) ∧
        sdp' =
          { sdp with
            text := v
            o :=
              { username := a.ptr, session := b.ptr, sessionVersion := c.ptr
                c := { network := d.ptr, addrtype := e.ptr, address := f.ptr } } } := by
  obtain ⟨a, ta, ha, hna, -, hsa⟩ := h.scanned.word
  obtain ⟨b, tb, hb, hnb, -, hsb⟩ := hsa.word
  obtain ⟨c, tc, hc, hnc, -, hsc⟩ := hsb.word
  obtain ⟨d, td, hd, hnd, -, hsd⟩ := hsc.word
  obtain ⟨e, te, he, hne, -, hse⟩ := hsd.word
  obtain ⟨f, tf, hf, hnf, -, hsf⟩ := hse.word
  simp only [parseOrigin, ha, hb, hc, hd, he, hf, ok_bind]
  have hall : (a.n > 0 ∧ b.n > 0 ∧ c.n > 0 ∧ d.n > 0 ∧ e.n > 0 ∧ f.n > 0) ↔
      ∀ w ∈ wordsAt 6 xs, w ≠ [] := by
    simp only [wordsAt, List.forall_mem_cons, hna, hnb, hnc, hnd, hne, hnf, gt_iff_lt,
      List.length_pos_iff]
    simp
  by_cases hwords : ∀ w ∈ wordsAt 6 xs, w ≠ []
  · rw [if_pos hwords]
    apply hsf.crlf.bind
    rintro rest t - ⟨-, -, -, v, hterminate, hclosed⟩
    simp only [List.nil_append, List.cons_append] at hterminate hclosed
    simp only [if_pos (hall.mpr hwords), hterminate, ok_bind]
    exact ⟨_, rfl, v, a, b, c, d, e, f, hclosed, rfl⟩
  · rw [if_neg hwords]
    apply hsf.crlf.bind_failed
    intro t
    rw [if_neg (fun hn => hwords (hall.mp hn))]

theorem parseTiming_outcome (h : At sdp.text xs) :
    Outcome (parseTiming sdp) (lineEnd (afterRest (afterWord xs))) fun rest sdp' =>
      ∃ v a b,
        Closed sdp.text v (afterRest (afterWord xs)) rest [a, b]
          [wordAt xs, restAt (afterWord xs)] ∧
        sdp' =
          { sdp with
            text := v
            t := sdp.t.push { start := a.ptr, stop := b.ptr, r := .empty, z := .empty } } := by
  obtain ⟨a, ta, ha, -, -, hsa⟩ := h.scanned.word
  obtain ⟨b, tb, hb, -, hsb⟩ := hsa.restOfLine
  simp only [parseTiming, ha, hb, ok_bind]
  apply hsb.crlf.bind
  rintro rest t - ⟨-, -, -, v, hterminate, hclosed⟩
  simp only [List.nil_append, List.cons_append] at hterminate hclosed
  simp only [hterminate, ok_bind]
  exact ⟨_, rfl, v, a, b, hclosed, rfl⟩

theorem parseVersion_outcome (h : At sdp.text xs) :
    Outcome (parseVersion sdp) (lineEnd ((skipBlanks xs).dropWhile isDigit)) fun rest sdp' =>
      ∃ v, Closed sdp.text v ((skipBlanks xs).dropWhile isDigit) rest [] [] ∧
        sdp' =
          { sdp with text := v, v := digitsValue ((skipBlanks xs).takeWhile isDigit) } := by
  obtain ⟨n, hskip, hat, -⟩ := h.skipSpace
  obtain ⟨junk, hdrop, -⟩ := hat.drop
  have hsplit : (skipBlanks xs).takeWhile isDigit ++ (skipBlanks xs).dropWhile isDigit =
      skipBlanks xs := List.takeWhile_append_dropWhile
  have hscan : CString.scan isDigit ((sdp.text.advance n).raw.drop (sdp.text.advance n).offset) =
      some ((skipBlanks xs).takeWhile isDigit).length := by
    rw [hdrop, scan_append (by decide)]
  have htake : ((sdp.text.advance n).raw.drop (sdp.text.advance n).offset).take
      ((skipBlanks xs).takeWhile isDigit).length = (skipBlanks xs).takeWhile isDigit := by
    rw [hdrop, ← hsplit, List.append_assoc]
    simp
  have hscanned : Scanned sdp.text
      ((sdp.text.advance n).advance ((skipBlanks xs).takeWhile isDigit).length)
      ((skipBlanks xs).dropWhile isDigit) [] [] := by
    refine ⟨rfl, ?_, ?_, sdp.text.offset, .nil .., ?_, fun hne => absurd rfl hne⟩
    · apply At.advance
      rwa [hsplit]
    · exact Nat.le_trans (Nat.le_add_right ..) (Nat.le_add_right ..)
    · exact Nat.le_trans (Nat.le_add_right ..) (Nat.le_add_right ..)
  simp only [parseVersion, hskip, ok_bind, hscan, htake]
  apply hscanned.crlf.bind
  rintro rest t - ⟨-, -, -, v, hterminate, hclosed⟩
  obtain rfl : t = v := Except.ok.inj hterminate
  exact ⟨_, rfl, t, hclosed, rfl⟩

/-! ## Lines of one text -/

/-- A token without blanks in front of it, of which a front may be kept. -/
theorem At.scanText {w : List UInt8} (h : At t xs) (hw : w <+: upTo eol xs) :
    Scanned t (t.advance (upTo eol xs).length) (behind eol xs) [⟨t.offset, w.length⟩] [w] := by
  have hspans : Spans t.raw t.offset (upTo eol xs) := h.spans_upTo eol
  apply h.scanned.snoc (v := t.advance _) rfl (h.tokenWord eol).2
    (reads_upTo hspans h.noNul hw) (Nat.le_refl _)
  · exact fun hne => absurd rfl hne
  · exact Nat.add_le_add_left hw.length_le _
  · exact fun hword => absurd hword (not_startsWord_eol (by decide))

theorem terminate_of_terminateAll {u v : Text} {tok : Token}
    (h : u.terminateAll [tok] = .ok v) : u.terminate tok = .ok v := by
  rw [Text.terminateAll] at h
  cases hone : u.terminate tok with
  | error e =>
      rw [hone] at h
      cases h
  | ok u' =>
      rw [hone] at h
      exact h

theorem At.textLine (h : At t xs) :
    Outcome t.textLine (lineEnd (behind eol xs)) fun rest r =>
      Closed t r.2 (behind eol xs) rest [r.1] [upTo eol xs] := by
  simp only [Text.textLine, (h.tokenWord eol).1, ok_bind]
  apply (h.scanText (List.prefix_refl _)).crlf.bind
  rintro rest u - ⟨-, -, -, v, hterminate, hclosed⟩
  refine ⟨(⟨t.offset, (upTo eol xs).length⟩, v), ?_, hclosed⟩
  rw [terminate_of_terminateAll hterminate]
  rfl

theorem parseSession_outcome (h : At sdp.text xs) :
    Outcome (parseSession sdp) (lineEnd (behind eol xs)) fun rest sdp' =>
      ∃ v a, Closed sdp.text v (behind eol xs) rest [a] [upTo eol xs] ∧
        sdp' = { sdp with text := v, s := a.ptr } := by
  apply h.textLine.bind
  rintro rest ⟨a, v⟩ - hclosed
  exact ⟨_, rfl, v, a, hclosed, rfl⟩

theorem parseY_outcome (h : At sdp.text xs) :
    Outcome (parseY sdp) (lineEnd (behind eol xs)) fun rest sdp' =>
      ∃ v a, Closed sdp.text v (behind eol xs) rest [a] [upTo eol xs] ∧
        sdp' = { sdp with text := v, y := a.ptr } := by
  apply h.textLine.bind
  rintro rest ⟨a, v⟩ - hclosed
  exact ⟨_, rfl, v, a, hclosed, rfl⟩

theorem parseUri_outcome (h : At sdp.text xs) (hu : sdp.u = none) :
    Outcome (parseUri sdp) (lineEnd (behind eol xs)) fun rest sdp' =>
      ∃ v a, Closed sdp.text v (behind eol xs) rest [a] [upTo eol xs] ∧
        sdp' = { sdp with text := v, u := a.ptr } := by
  rw [parseUri, hu]
  apply h.textLine.bind
  rintro rest ⟨a, v⟩ - hclosed
  exact ⟨_, rfl, v, a, hclosed, rfl⟩

theorem parseEmail_outcome (h : At sdp.text xs) :
    Outcome (parseEmail sdp) (lineEnd (behind eol xs)) fun rest sdp' =>
      ∃ v a, Closed sdp.text v (behind eol xs) rest [a] [upTo eol xs] ∧
        sdp' = { sdp with text := v, e := sdp.e.push a.ptr } := by
  apply h.textLine.bind
  rintro rest ⟨a, v⟩ - hclosed
  exact ⟨_, rfl, v, a, hclosed, rfl⟩

theorem parsePhone_outcome (h : At sdp.text xs) :
    Outcome (parsePhone sdp) (lineEnd (behind eol xs)) fun rest sdp' =>
      ∃ v a, Closed sdp.text v (behind eol xs) rest [a] [trimmed (upTo eol xs)] ∧
        sdp' = { sdp with text := v, p := sdp.p.push a.ptr } := by
  have hspans : Spans sdp.text.raw sdp.text.offset (upTo eol xs) := h.spans_upTo eol
  simp only [parsePhone, (h.tokenWord eol).1, ok_bind]
  apply (h.scanText (trimmed_front _)).crlf.bind
  rintro rest u - ⟨hraw, -, -, v, hterminate, hclosed⟩
  have htrim : u.trim ⟨sdp.text.offset, (upTo eol xs).length⟩ =
      .ok ⟨sdp.text.offset, (trimmed (upTo eol xs)).length⟩ := by
    rw [Text.trim, hraw, trimRight_eq _ hspans]
    rfl
  simp only [htrim, ok_bind, terminate_of_terminateAll hterminate]
  exact ⟨_, rfl, v, _, hclosed, rfl⟩

/-! ## Lines of a section -/

def Session.MediaOk (sdp : Session) : Prop := 0 < sdp.m.count → ∃ m, sdp.lastMedia = .ok m

theorem record_ok (hm : sdp.MediaOk) (v : Text) (onMedia : Media → Media)
    (onSession : Session → Session) :
    ∃ sdp', { sdp with text := v }.record onMedia onSession = .ok sdp' := by
  by_cases hcount : sdp.m.count > 0
  · obtain ⟨m, hlast⟩ := hm hcount
    have hlast' : { sdp with text := v }.lastMedia = .ok m := hlast
    refine ⟨{ sdp with text := v }.setLastMedia (onMedia m), ?_⟩
    rw [Session.record, if_pos hcount, hlast']
    rfl
  · exact ⟨_, if_neg hcount⟩

theorem parseInformation_outcome (h : At sdp.text xs) (hm : sdp.MediaOk) :
    Outcome (parseInformation sdp) (lineEnd (behind eol xs)) fun rest sdp' =>
      ∃ v a, Closed sdp.text v (behind eol xs) rest [a] [upTo eol xs] ∧
        { sdp with text := v }.record (fun m => { m with i := a.ptr })
          (fun sdp => { sdp with i := a.ptr }) = .ok sdp' := by
  apply h.textLine.bind
  rintro rest ⟨a, v⟩ - hclosed
  obtain ⟨sdp', hrecord⟩ := record_ok hm v (fun m => { m with i := a.ptr })
    (fun sdp => { sdp with i := a.ptr })
  exact ⟨sdp', hrecord, v, a, hclosed, hrecord⟩

/-- The three parts of `c=`. -/
def connectionParts (xs : List UInt8) : List (List UInt8) :=
  [wordAt xs, wordAt (afterWord xs), restAt (afterWords 2 xs)]

theorem parseConnection_outcome (h : At sdp.text xs) (hm : sdp.MediaOk) :
    Outcome (parseConnection sdp)
      (if ∀ w ∈ connectionParts xs, w ≠ [] then lineEnd (afterRest (afterWords 2 xs)) else none)
      fun rest sdp' => ∃ v a b d,
        Closed sdp.text v (afterRest (afterWords 2 xs)) rest [a, b, d] (connectionParts xs) ∧
        { sdp with text := v }.record
          (fun m => { m with c := m.c.push ⟨a.ptr, b.ptr, d.ptr⟩ })
          (fun sdp => { sdp with c := ⟨a.ptr, b.ptr, d.ptr⟩ }) = .ok sdp' := by
  obtain ⟨a, ta, ha, hna, -, hsa⟩ := h.scanned.word
  obtain ⟨b, tb, hb, hnb, -, hsb⟩ := hsa.word
  obtain ⟨d, td, hd, hnd, hsd⟩ := hsb.restOfLine
  simp only [parseConnection, ha, hb, hd, ok_bind]
  have hall : (a.n > 0 ∧ b.n > 0 ∧ d.n > 0) ↔ ∀ w ∈ connectionParts xs, w ≠ [] := by
    simp only [connectionParts, List.forall_mem_cons, hna, hnb, hnd, gt_iff_lt,
      List.length_pos_iff]
    simp [afterWords]
  by_cases hwords : ∀ w ∈ connectionParts xs, w ≠ []
  · rw [if_pos hwords]
    apply hsd.crlf.bind
    rintro rest t - ⟨-, -, -, v, hterminate, hclosed⟩
    simp only [List.nil_append, List.cons_append] at hterminate hclosed
    simp only [if_pos (hall.mpr hwords), hterminate, ok_bind]
    obtain ⟨sdp', hrecord⟩ := record_ok hm v
      (fun m => { m with c := m.c.push ⟨a.ptr, b.ptr, d.ptr⟩ })
      (fun sdp => { sdp with c := ⟨a.ptr, b.ptr, d.ptr⟩ })
    exact ⟨sdp', hrecord, v, a, b, d, hclosed, hrecord⟩
  · rw [if_neg hwords]
    apply hsd.crlf.bind_failed
    intro t
    rw [if_neg (fun hn => hwords (hall.mp hn))]

theorem At.pairLine (h : At t xs) :
    Outcome t.pairLine (lineEnd (afterRest (afterColon xs))) fun rest r =>
      Closed t r.2.2 (afterRest (afterColon xs)) rest [r.1, r.2.1]
        [nameAt xs, restAt (afterColon xs)] := by
  obtain ⟨a, ta, ha, -, hsa⟩ := h.scanned.beforeColon
  obtain ⟨b, tb, hb, -, hsb⟩ := hsa.restOfLine
  simp only [Text.pairLine, ha, hb, ok_bind]
  apply hsb.crlf.bind
  rintro rest u - ⟨-, -, -, v, hterminate, hclosed⟩
  simp only [List.nil_append, List.cons_append] at hterminate hclosed
  simp only [hterminate, ok_bind]
  exact ⟨(a, b, v), rfl, hclosed⟩

theorem pairLine_record_outcome (h : At sdp.text xs) (hm : sdp.MediaOk)
    (onMedia : Nat → Nat → Media → Media) (onSession : Nat → Nat → Session → Session) :
    Outcome (do
        let (name, value, t) ← sdp.text.pairLine
        { sdp with text := t }.record (onMedia name.ptr value.ptr) (onSession name.ptr value.ptr))
      (lineEnd (afterRest (afterColon xs))) fun rest sdp' => ∃ v a b,
        Closed sdp.text v (afterRest (afterColon xs)) rest [a, b]
          [nameAt xs, restAt (afterColon xs)] ∧
        { sdp with text := v }.record (onMedia a.ptr b.ptr) (onSession a.ptr b.ptr) =
          .ok sdp' := by
  apply h.pairLine.bind
  rintro rest ⟨a, b, v⟩ - hclosed
  obtain ⟨sdp', hrecord⟩ := record_ok hm v (onMedia a.ptr b.ptr) (onSession a.ptr b.ptr)
  exact ⟨sdp', hrecord, v, a, b, hclosed, hrecord⟩

theorem parseBandwidth_outcome (h : At sdp.text xs) (hm : sdp.MediaOk) :
    Outcome (parseBandwidth sdp) (lineEnd (afterRest (afterColon xs))) fun rest sdp' => ∃ v a b,
      Closed sdp.text v (afterRest (afterColon xs)) rest [a, b]
        [nameAt xs, restAt (afterColon xs)] ∧
      { sdp with text := v }.record (fun m => { m with b := m.b.push ⟨a.ptr, b.ptr⟩ })
        (fun sdp => { sdp with b := sdp.b.push ⟨a.ptr, b.ptr⟩ }) = .ok sdp' :=
  pairLine_record_outcome h hm (fun a b m => { m with b := m.b.push ⟨a, b⟩ })
    (fun a b sdp => { sdp with b := sdp.b.push ⟨a, b⟩ })

theorem parseEncryption_outcome (h : At sdp.text xs) (hm : sdp.MediaOk) :
    Outcome (parseEncryption sdp) (lineEnd (afterRest (afterColon xs))) fun rest sdp' =>
      ∃ v a b,
        Closed sdp.text v (afterRest (afterColon xs)) rest [a, b]
          [nameAt xs, restAt (afterColon xs)] ∧
        { sdp with text := v }.record (fun m => { m with k := ⟨a.ptr, b.ptr⟩ })
          (fun sdp => { sdp with k := ⟨a.ptr, b.ptr⟩ }) = .ok sdp' :=
  pairLine_record_outcome h hm (fun a b m => { m with k := ⟨a, b⟩ })
    (fun a b sdp => { sdp with k := ⟨a, b⟩ })

theorem parseAttribute_outcome (h : At sdp.text xs) (hm : sdp.MediaOk) :
    Outcome (parseAttribute sdp) (lineEnd (afterRest (afterColon xs))) fun rest sdp' => ∃ v a b,
      Closed sdp.text v (afterRest (afterColon xs)) rest [a, b]
        [nameAt xs, restAt (afterColon xs)] ∧
      { sdp with text := v }.record (fun m => { m with a := m.a.push ⟨a.ptr, b.ptr⟩ })
        (fun sdp => { sdp with a := sdp.a.push ⟨a.ptr, b.ptr⟩ }) = .ok sdp' :=
  pairLine_record_outcome h hm (fun a b m => { m with a := m.a.push ⟨a, b⟩ })
    (fun a b sdp => { sdp with a := sdp.a.push ⟨a, b⟩ })

end GbStream.Sdp
