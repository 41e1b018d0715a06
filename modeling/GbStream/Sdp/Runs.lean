import GbStream.Sdp.Grammar

/-!
# Runs of the parser

Which lines the parser comes to, when it returns, and when it stays inside its memory.
-/

namespace GbStream.Sdp

open Support Support.CString

variable {t : Text} {sdp : Session} {ctx : Context} {xs text : List UInt8}

/-! ## Fuel -/

def Settles {α : Type} (f : Nat → Except Stop α) : Prop :=
  ∀ n, f n ≠ .error .outOfFuel → ∀ m, n ≤ m → f m = f n

theorem Settles.const {α : Type} (r : Except Stop α) : Settles fun _ => r :=
  fun _ _ _ _ => rfl

theorem Settles.bind {α β : Type} {f : Nat → Except Stop α} {g : Nat → α → Except Stop β}
    (hf : Settles f) (hg : ∀ a, Settles fun n => g n a) : Settles fun n => f n >>= g n := by
  intro n hn m hm
  cases hfn : f n with
  | error e =>
      have hne : f n ≠ .error .outOfFuel := by
        rintro heq
        exact hn (by simp only [heq, error_bind])
      simp only [hf n hne m hm, hfn, error_bind]
  | ok a =>
      have hfm : f m = .ok a := (hf n (by rw [hfn]; exact fun h => nomatch h) m hm).trans hfn
      simp only [hfn, ok_bind] at hn
      simp only [hfn, hfm, ok_bind]
      exact hg a n hn m hm

/-- A loop each round of which ends it, whatever fuel is left, or goes on elsewhere. -/
theorem settles_of_rounds {σ α : Type} {f : Nat → σ → Except Stop α}
    (hzero : ∀ s, f 0 s = .error .outOfFuel)
    (hround : ∀ s, (∃ r, ∀ n, f (n + 1) s = r) ∨ ∃ s', ∀ n, f (n + 1) s = f n s') (s : σ) :
    Settles fun n => f n s := by
  intro n
  induction n generalizing s with
  | zero => exact fun hn => absurd (hzero s) hn
  | succ n ih =>
      intro hn m hm
      obtain ⟨m, rfl⟩ := Nat.exists_eq_add_of_lt hm
      dsimp only at hn ⊢
      rcases hround s with ⟨r, hr⟩ | ⟨s', hs'⟩
      · rw [hr, hr]
      · rw [hs'] at hn
        rw [hs', hs']
        exact ih s' hn _ (Nat.le_add_right ..)

theorem repeatLoop_settles (t : Text) (offset : Option Token)
    (offsets : Growable (Option Nat) 1) : Settles fun n => repeatLoop n t offset offsets := by
  apply settles_of_rounds (f := fun n s => repeatLoop n s.1 s.2.1 s.2.2)
    (fun _ => rfl) _ (t, offset, offsets)
  rintro ⟨t, offset, offsets⟩
  dsimp only [repeatLoop]
  cases t.char with
  | error e => exact .inl ⟨_, fun _ => rfl⟩
  | ok c =>
      by_cases hc : c = space ∨ c = tab ∨ c = 0
      · simp only [ok_bind, if_pos hc]
        cases appendOffset t offset offsets with
        | error e => exact .inl ⟨_, fun _ => rfl⟩
        | ok r =>
            simp only [ok_bind]
            cases r.1.word with
            | error e => exact .inl ⟨_, fun _ => rfl⟩
            | ok w => exact .inr ⟨(w.2, some w.1, r.2), fun _ => rfl⟩
      · simp only [ok_bind, if_neg hc]
        exact .inl ⟨_, fun _ => rfl⟩

theorem timezoneLoop_settles (t : Text) (timing : Timing) :
    Settles fun n => timezoneLoop n t timing := by
  apply settles_of_rounds (f := fun n s => timezoneLoop n s.1 s.2) (fun _ => rfl) _ (t, timing)
  rintro ⟨t, timing⟩
  dsimp only [timezoneLoop]
  cases t.word with
  | error e => exact .inl ⟨_, fun _ => rfl⟩
  | ok time =>
      simp only [ok_bind]
      cases time.2.word with
      | error e => exact .inl ⟨_, fun _ => rfl⟩
      | ok offset =>
          simp only [ok_bind]
          by_cases hn : time.1.n < 1 ∨ offset.1.n < 1
          · simp only [if_pos hn]
            exact .inl ⟨_, fun _ => rfl⟩
          · simp only [if_neg hn]
            cases timing.z.storeAt timing.r.count ⟨time.1.ptr, offset.1.ptr⟩ with
            | none => exact .inl ⟨_, fun _ => rfl⟩
            | some z => exact .inr ⟨(offset.2, { timing with z }), fun _ => rfl⟩

theorem formatLoop_settles (fmt : Token) (t : Text) (formats : Growable (Option Nat) 5) :
    Settles fun n => formatLoop n fmt t formats := by
  apply settles_of_rounds (f := fun n s => formatLoop n s.1 s.2.1 s.2.2)
    (fun _ => rfl) _ (fmt, t, formats)
  rintro ⟨fmt, t, formats⟩
  dsimp only [formatLoop]
  cases t.raw[fmt.stop]? with
  | none => exact .inl ⟨_, fun _ => rfl⟩
  | some c =>
      dsimp only
      by_cases hc : c = space ∨ c = tab
      · simp only [if_pos hc]
        cases t.terminate fmt with
        | error e => exact .inl ⟨_, fun _ => rfl⟩
        | ok u =>
            simp only [ok_bind]
            cases u.word with
            | error e => exact .inl ⟨_, fun _ => rfl⟩
            | ok w => exact .inr ⟨(w.1, w.2, formats.push fmt.ptr), fun _ => rfl⟩
      · simp only [if_neg hc]
        exact .inl ⟨_, fun _ => rfl⟩

theorem parseBody_settles (sdp : Session) (kind : LineKind) :
    Settles fun n => parseBody n sdp kind := by
  cases kind with
  | r =>
      simp only [parseBody, parseRepeat]
      split
      · exact .const _
      · apply Settles.bind (.const _)
        intro timing
        apply Settles.bind (.const _)
        intro interval
        apply Settles.bind (.const _)
        intro duration
        apply Settles.bind (repeatLoop_settles _ _ _)
        exact fun _ => .const _
  | z =>
      simp only [parseBody, parseTimezone]
      split
      · exact .const _
      · apply Settles.bind (.const _)
        intro timing
        apply Settles.bind (timezoneLoop_settles _ _)
        exact fun _ => .const _
  | m =>
      simp only [parseBody, parseMedia]
      apply Settles.bind (.const _)
      intro media
      apply Settles.bind (.const _)
      intro port
      apply Settles.bind (.const _)
      intro proto
      apply Settles.bind (.const _)
      intro fmt
      apply Settles.bind (formatLoop_settles _ _ _)
      exact fun _ => .const _
  | v | o | s | i | u | e | p | c | b | t | k | a | y => exact .const _

theorem parseLine_settles (sdp : Session) : Settles fun n => parseLine n sdp := by
  simp only [parseLine]
  apply Settles.bind (.const _)
  intro t
  apply Settles.bind (.const _)
  intro c
  apply Settles.bind (.const _)
  intro u
  apply Settles.bind (.const _)
  intro d
  split
  · exact .const _
  · apply Settles.bind (.const _)
    intro v
    split
    · exact .const _
    · exact parseBody_settles _ _

theorem parseLines_settles_fuel (rounds : Nat) :
    ∀ sdp, Settles fun n => parseLines n rounds sdp := by
  induction rounds with
  | zero => exact fun _ => .const _
  | succ rounds ih =>
      intro sdp
      simp only [parseLines]
      apply Settles.bind (.const _)
      intro c
      split
      · exact .const _
      · exact Settles.bind (parseLine_settles sdp) ih

theorem parseLines_settles_rounds (fuel : Nat) (sdp : Session) :
    Settles fun n => parseLines fuel n sdp := by
  apply settles_of_rounds (f := parseLines fuel) (fun _ => rfl)
  intro sdp
  dsimp only [parseLines]
  cases sdp.text.char with
  | error e => exact .inl ⟨_, fun _ => rfl⟩
  | ok c =>
      simp only [ok_bind]
      split
      · exact .inl ⟨_, fun _ => rfl⟩
      · cases parseLine fuel sdp with
        | error e => exact .inl ⟨_, fun _ => rfl⟩
        | ok sdp' => exact .inr ⟨sdp', fun _ => rfl⟩

theorem sdpParse_settles (s : List UInt8) : Settles fun n => sdpParse n s := by
  intro n hn m hm
  have hfuel := parseLines_settles_fuel n _ n hn m hm
  have hrounds := parseLines_settles_rounds m _ n (by
    dsimp only at hfuel ⊢
    rw [hfuel]
    exact hn) m hm
  exact hrounds.trans hfuel

/-! ## Line starts -/

/-- The main loop goes on. -/
inductive OpensLine : List UInt8 → Prop
  | mk {c : UInt8} {xs : List UInt8} (h : c ∉ eol) : OpensLine (c :: xs)

/-- The lines of a text that the parser comes to, after it has accepted those before. -/
inductive LineStart (text : List UInt8) : Context → List UInt8 → Prop
  | first : LineStart text {} text
  | next {ctx ctx' : Context} {xs rest : List UInt8} (h : LineStart text ctx xs)
      (hopens : OpensLine xs) (hread : readLine ctx xs = .ok (ctx', rest)) :
      LineStart text ctx' rest

theorem parseLines_end {fuel rounds : Nat} (h : At sdp.text xs) (hend : ¬ OpensLine xs) :
    parseLines fuel (rounds + 1) sdp = .ok sdp := by
  rw [parseLines, h.char]
  have hc : xs.headD 0 = 0 ∨ xs.headD 0 = cr ∨ xs.headD 0 = lf := by
    cases xs with
    | nil => exact .inl rfl
    | cons c xs =>
        have hmem : c ∈ eol := by
          by_contra hmem
          exact hend (.mk hmem)
        simpa [eol] using Or.inr hmem
  simp only [ok_bind, if_pos hc]

theorem At.goesOn (h : At t xs) (hopens : OpensLine xs) :
    ¬ (xs.headD 0 = 0 ∨ xs.headD 0 = cr ∨ xs.headD 0 = lf) := by
  cases hopens with
  | @mk c xs hc =>
      have hzero : c ≠ 0 := fun hzero => h.noNul (hzero ▸ List.mem_cons_self ..)
      simpa [eol, hzero] using hc

theorem parseLines_line {fuel rounds : Nat} (h : At sdp.text xs) (hopens : OpensLine xs) :
    parseLines fuel (rounds + 1) sdp =
      (parseLine fuel sdp >>= fun sdp => parseLines fuel rounds sdp) := by
  rw [parseLines, h.char]
  simp only [ok_bind, if_neg (h.goesOn hopens)]

structure Stands (sdp : Session) (ctx : Context) (xs : List UInt8) (fuel rounds : Nat) :
    Prop where
  rest : At sdp.text xs
  tracks : Tracks ctx sdp
  fuel : xs.length + 2 ≤ fuel
  rounds : xs.length < rounds

theorem Stands.line {fuel rounds : Nat} (h : Stands sdp ctx xs fuel (rounds + 1))
    (hopens : OpensLine xs) :
    match readLine ctx xs with
    | .error e => parseLine fuel sdp = .error e
    | .ok (ctx', rest) =>
        ∃ sdp', parseLine fuel sdp = .ok sdp' ∧ Stands sdp' ctx' rest fuel rounds := by
  have hne : xs ≠ [] := by
    rintro rfl
    cases hopens
  have hlength := h.rest.length hne
  have hrounds := h.rounds
  have hfuel := h.fuel
  have hrefines := parseLine_refines h.rest hne h.tracks h.fuel
  generalize readLine ctx xs = read at hrefines ⊢
  cases hrefines with
  | stops hline => exact hline
  | @leaves ctx' rest sdp' hline hat hframe htracks =>
      have hlt := hat.offset_lt
      have hle := hframe.le
      have hraw := hframe.length
      simp only [Text.raw_advance, Text.offset_advance] at hle hraw
      exact ⟨sdp', hline, hat, htracks, by omega, by omega⟩

theorem stands_line {fuel rounds : Nat} (h : Stands sdp ctx xs fuel (rounds + 1))
    (hopens : OpensLine xs) :
    match readLine ctx xs with
    | .error e => parseLines fuel (rounds + 1) sdp = .error e
    | .ok (ctx', rest) => ∃ sdp', parseLines fuel (rounds + 1) sdp = parseLines fuel rounds sdp' ∧
        Stands sdp' ctx' rest fuel rounds := by
  have hline := h.line hopens
  rw [parseLines_line h.rest hopens]
  generalize readLine ctx xs = read at hline ⊢
  cases read with
  | error e =>
      rw [show parseLine fuel sdp = .error e from hline]
      rfl
  | ok r =>
      obtain ⟨sdp', hline, hstands⟩ := hline
      rw [hline]
      exact ⟨sdp', rfl, hstands⟩

theorem stands_first (s : List UInt8) {fuel : Nat} (hfuel : (stringAt s 0).length + 2 ≤ fuel) :
    Stands { text := { raw := strdup s, offset := 0 } } {} (stringAt s 0) fuel fuel where
  rest :=
    { drop := ⟨[], rfl, fun _ => rfl⟩
      noNul := fun hmem => by
        have hnul := List.mem_takeWhile_imp hmem
        simp at hnul }
  tracks :=
    { uri := rfl
      timing := rfl
      media := fun h => absurd h (Nat.lt_irrefl 0) }
  fuel := hfuel
  rounds := by omega

theorem LineStart.stands {s : List UInt8} {fuel : Nat}
    (hfuel : (stringAt s 0).length + 2 ≤ fuel) {ctx : Context} {xs : List UInt8}
    (h : LineStart (stringAt s 0) ctx xs) :
    ∃ rounds sdp, sdpParse fuel s = parseLines fuel rounds sdp ∧ Stands sdp ctx xs fuel rounds := by
  induction h with
  | first => exact ⟨fuel, _, rfl, stands_first s hfuel⟩
  | next _ hopens hread ih =>
      obtain ⟨rounds, sdp, hparse, hstands⟩ := ih
      obtain ⟨rounds, rfl⟩ := Nat.exists_eq_add_of_lt (Nat.zero_lt_of_lt hstands.rounds)
      rw [Nat.zero_add] at hparse hstands
      have hline := stands_line hstands hopens
      rw [hread] at hline
      obtain ⟨sdp', hrun, hstands'⟩ := hline
      exact ⟨rounds, sdp', hparse.trans hrun, hstands'⟩

def StopsAt (text : List UInt8) (e : Stop) : Prop :=
  ∃ ctx xs, LineStart text ctx xs ∧ OpensLine xs ∧ readLine ctx xs = .error e

theorem sdpParse_of_stopsAt {s : List UInt8} {e : Stop} (h : StopsAt (stringAt s 0) e)
    (fuel : Nat) (hfuel : (stringAt s 0).length + 2 ≤ fuel) : sdpParse fuel s = .error e := by
  obtain ⟨ctx, xs, hstart, hopens, hread⟩ := h
  obtain ⟨rounds, sdp, hparse, hstands⟩ := hstart.stands hfuel
  obtain ⟨rounds, rfl⟩ := Nat.exists_eq_add_of_lt (Nat.zero_lt_of_lt hstands.rounds)
  rw [Nat.zero_add] at hparse hstands
  have hline := stands_line hstands hopens
  rw [hread] at hline
  exact hparse.trans hline

/-- From a line start the parser returns a session or comes to a line that stops it. -/
theorem parseLines_cases {fuel : Nat} (rounds : Nat) :
    ∀ {sdp : Session} {ctx : Context} {xs : List UInt8}, LineStart text ctx xs →
      Stands sdp ctx xs fuel rounds →
      (∃ sdp', parseLines fuel rounds sdp = .ok sdp') ∨
        ∃ e, StopsAt text e ∧ parseLines fuel rounds sdp = .error e := by
  induction rounds with
  | zero => exact fun _ hstands => absurd hstands.rounds (Nat.not_lt_zero _)
  | succ rounds ih =>
      intro sdp ctx xs hstart hstands
      by_cases hopens : OpensLine xs
      · have hline := stands_line hstands hopens
        cases hread : readLine ctx xs with
        | error e =>
            rw [hread] at hline
            exact .inr ⟨e, ⟨ctx, xs, hstart, hopens, hread⟩, hline⟩
        | ok r =>
            rw [hread] at hline
            obtain ⟨sdp', hrun, hstands'⟩ := hline
            rw [hrun]
            exact ih (hstart.next hopens hread) hstands'
      · exact .inl ⟨sdp, parseLines_end hstands.rest hopens⟩

theorem sdpParse_cases (s : List UInt8) (fuel : Nat)
    (hfuel : (stringAt s 0).length + 2 ≤ fuel) :
    (∃ sdp, sdpParse fuel s = .ok sdp) ∨
      ∃ e, StopsAt (stringAt s 0) e ∧ sdpParse fuel s = .error e :=
  parseLines_cases fuel .first (stands_first s hfuel)

/-- With any fuel, a result other than running out of it comes from the text. -/
theorem sdpParse_error_iff {s : List UInt8} {e : Stop} (he : e ≠ .outOfFuel) :
    (∃ fuel, sdpParse fuel s = .error e) ↔ StopsAt (stringAt s 0) e := by
  constructor
  · rintro ⟨fuel, hparse⟩
    have hmore : sdpParse (fuel + (stringAt s 0).length + 2) s = .error e := by
      rw [← hparse]
      apply sdpParse_settles s fuel _ _ (by omega)
      dsimp only
      rw [hparse]
      exact fun heq => he (Except.error.inj heq)
    rcases sdpParse_cases s (fuel + (stringAt s 0).length + 2) (by omega) with
      ⟨sdp, hok⟩ | ⟨e', hstops, herror⟩
    · rw [hok] at hmore
      cases hmore
    · rw [herror] at hmore
      obtain rfl := Except.error.inj hmore
      exact hstops
  · exact fun h => ⟨_, sdpParse_of_stopsAt h _ (Nat.le_refl _)⟩

theorem sdpParse_diverges_iff {s : List UInt8} :
    (∀ fuel, sdpParse fuel s = .error .outOfFuel) ↔ StopsAt (stringAt s 0) .outOfFuel := by
  constructor
  · intro h
    rcases sdpParse_cases s _ (Nat.le_refl _) with ⟨sdp, hok⟩ | ⟨e, hstops, herror⟩
    · rw [h] at hok
      cases hok
    · rw [h] at herror
      obtain rfl := Except.error.inj herror
      exact hstops
  · intro h fuel
    by_contra hne
    have hmore := sdpParse_settles s fuel hne (fuel + (stringAt s 0).length + 2) (by omega)
    have hstop := sdpParse_of_stopsAt h (fuel + (stringAt s 0).length + 2) (by omega)
    exact hne (hmore.symm.trans hstop)

/-! ## How lines stop the parser -/

/-- A timed `r=` line whose loop does not come to the end of the line: two words must be
followed at once by it, or by blanks and one more word that is followed at once by it. -/
inductive Hangs (ctx : Context) (xs : List UInt8) : Prop
  | repeatLine {body : List UInt8} {counts : Nat × Nat}
      (head : lineHead xs = .ok (byte 'r', body)) (timing : ctx.timing = some counts)
      (rest : repeatRest body = none)

/-- A line that ends in a failed assertion or in an access outside. -/
inductive Crashes (ctx : Context) (xs : List UInt8) : Prop
  /-- Blanks up to the terminator, behind which the scanner looks for the equals sign. -/
  | blankTail (blanks : skipBlanks xs = [])
  | unknownLetter {c : UInt8} {body : List UInt8} (head : lineHead xs = .ok (c, body))
      (unknown : lineKinds.lookup c = none)
  | secondUri {body : List UInt8} (head : lineHead xs = .ok (byte 'u', body))
      (uri : ctx.uri = true)
  | untimed {c : UInt8} {body : List UInt8} (head : lineHead xs = .ok (c, body))
      (letter : c = byte 'r' ∨ c = byte 'z') (timing : ctx.timing = none)
  /-- A `z=` pair is stored in the slot that the number of `r=` lines picks. -/
  | slot {body : List UInt8} {repeats count : Nat} (head : lineHead xs = .ok (byte 'z', body))
      (timing : ctx.timing = some (repeats, count))
      (outside : ¬ SlotsOk repeats count (zones body).1)

theorem lineHead_error {e : Stop} (h : lineHead xs = .error e) :
    (e = .outOfBounds ∧ skipBlanks xs = []) ∨ e = .failed := by
  unfold lineHead at h
  split at h
  · rename_i hxs
    exact .inl ⟨(Except.error.inj h).symm, hxs⟩
  · split at h
    · exact .inr (Except.error.inj h).symm
    · split at h
      · cases h
      · exact .inr (Except.error.inj h).symm

theorem leave_error {rest? : Option (List UInt8)} {e : Stop} (h : leave ctx rest? = .error e) :
    e = .failed := by
  cases rest? with
  | none => exact (Except.error.inj h).symm
  | some rest => cases h

theorem letter_of_lookup {c : UInt8} {kind : LineKind} (h : lineKinds.lookup c = some kind) :
    (c, kind) ∈ lineKinds := by
  obtain ⟨front, back, hsplit, -⟩ := List.lookup_eq_some_iff.mp h
  rw [hsplit]
  exact List.mem_append_right _ (List.mem_cons_self ..)

theorem readLine_of_head {c : UInt8} {body : List UInt8} (kind : LineKind)
    (head : lineHead xs = .ok (c, body)) (hkind : lineKinds.lookup c = some kind) :
    readLine ctx xs = readBody ctx body kind := by
  simp only [readLine, head, ok_bind, hkind]

/-- A line that stops the parser otherwise than by `-1` is one of these. -/
theorem readLine_error {e : Stop} (h : readLine ctx xs = .error e) :
    e = .failed ∨ (e = .outOfFuel ∧ Hangs ctx xs) ∨ (e ≠ .outOfFuel ∧ Crashes ctx xs) := by
  cases head : lineHead xs with
  | error e' =>
      simp only [readLine, head, error_bind] at h
      obtain rfl := Except.error.inj h
      rcases lineHead_error head with ⟨rfl, hblank⟩ | rfl
      · exact .inr (.inr ⟨by decide, .blankTail hblank⟩)
      · exact .inl rfl
  | ok r =>
      obtain ⟨c, body⟩ := r
      cases hkind : lineKinds.lookup c with
      | none =>
          simp only [readLine, head, ok_bind, hkind] at h
          obtain rfl := Except.error.inj h
          exact .inr (.inr ⟨by decide, .unknownLetter head hkind⟩)
      | some kind =>
          have hletter := letter_of_lookup hkind
          rw [readLine_of_head kind head hkind] at h
          cases kind with
          | u =>
              obtain rfl : c = byte 'u' := by simpa [lineKinds] using hletter
              rw [readBody] at h
              split at h
              · rename_i huri
                obtain rfl := Except.error.inj h
                exact .inr (.inr ⟨by decide, .secondUri head huri⟩)
              · exact .inl (leave_error h)
          | r =>
              obtain rfl : c = byte 'r' := by simpa [lineKinds] using hletter
              rw [readBody] at h
              split at h
              · rename_i htiming
                obtain rfl := Except.error.inj h
                exact .inr (.inr ⟨by decide, .untimed head (.inl rfl) htiming⟩)
              · rename_i htiming
                split at h
                · rename_i hrest
                  obtain rfl := Except.error.inj h
                  exact .inr (.inl ⟨rfl, .repeatLine head htiming hrest⟩)
                · exact .inl (leave_error h)
          | z =>
              obtain rfl : c = byte 'z' := by simpa [lineKinds] using hletter
              rw [readBody] at h
              split at h
              · rename_i htiming
                obtain rfl := Except.error.inj h
                exact .inr (.inr ⟨by decide, .untimed head (.inr rfl) htiming⟩)
              · rename_i htiming
                split at h
                · exact .inl (leave_error h)
                · rename_i houtside
                  obtain rfl := Except.error.inj h
                  exact .inr (.inr ⟨by decide, .slot head htiming houtside⟩)
          | v | o | s | i | e | p | c | b | t | k | a | m | y => exact .inl (leave_error h)

theorem Hangs.readLine (h : Hangs ctx xs) : readLine ctx xs = .error .outOfFuel := by
  obtain ⟨head, timing, rest⟩ := h
  rw [readLine_of_head .r head rfl]
  simp only [readBody, timing, rest]

theorem Crashes.readLine (h : Crashes ctx xs) :
    ∃ e, e ≠ .failed ∧ e ≠ .outOfFuel ∧ readLine ctx xs = .error e := by
  cases h with
  | blankTail blanks =>
      exact ⟨.outOfBounds, by decide, by decide, by simp only [Sdp.readLine, lineHead, blanks,
        error_bind]⟩
  | unknownLetter head unknown =>
      exact ⟨.assertFailed, by decide, by decide, by simp only [Sdp.readLine, head, ok_bind,
        unknown]⟩
  | secondUri head uri =>
      refine ⟨.assertFailed, by decide, by decide, ?_⟩
      rw [readLine_of_head .u head rfl, readBody, if_pos uri]
  | untimed head letter timing =>
      refine ⟨.assertFailed, by decide, by decide, ?_⟩
      rcases letter with rfl | rfl
      · rw [readLine_of_head .r head rfl]
        simp only [readBody, timing]
      · rw [readLine_of_head .z head rfl]
        simp only [readBody, timing]
  | slot head timing outside =>
      refine ⟨.badSlot, by decide, by decide, ?_⟩
      rw [readLine_of_head .z head rfl]
      simp only [readBody, timing, if_neg outside]

/-- The line starts that the parser comes to stop it only by `-1`. -/
def StopsOnlyByFailed (s : List UInt8) : Prop := ∀ e, StopsAt (stringAt s 0) e → e = .failed

theorem stopsOnlyByFailed_iff (s : List UInt8) :
    StopsOnlyByFailed s ↔ ∀ ctx xs, LineStart (stringAt s 0) ctx xs → OpensLine xs →
      ¬ Crashes ctx xs ∧ ¬ Hangs ctx xs := by
  constructor
  · intro h ctx xs hstart hopens
    constructor
    · intro hcrashes
      obtain ⟨e, hfailed, -, hread⟩ := hcrashes.readLine
      exact hfailed (h e ⟨ctx, xs, hstart, hopens, hread⟩)
    · intro hhangs
      have hfailed := h .outOfFuel ⟨ctx, xs, hstart, hopens, hhangs.readLine⟩
      cases hfailed
  · rintro h e ⟨ctx, xs, hstart, hopens, hread⟩
    obtain ⟨hcrashes, hhangs⟩ := h ctx xs hstart hopens
    rcases readLine_error hread with rfl | ⟨-, hhangs'⟩ | ⟨-, hcrashes'⟩
    · rfl
    · exact absurd hhangs' hhangs
    · exact absurd hcrashes' hcrashes

/-- The parser runs for ever exactly on the texts in which it comes to an `r=` line that
hangs. -/
theorem sdpParse_diverges_iff_hangs (s : List UInt8) :
    (∀ fuel, sdpParse fuel s = .error .outOfFuel) ↔
      ∃ ctx xs, LineStart (stringAt s 0) ctx xs ∧ OpensLine xs ∧ Hangs ctx xs := by
  rw [sdpParse_diverges_iff]
  constructor
  · rintro ⟨ctx, xs, hstart, hopens, hread⟩
    rcases readLine_error hread with hfailed | ⟨-, hhangs⟩ | ⟨hne, -⟩
    · cases hfailed
    · exact ⟨ctx, xs, hstart, hopens, hhangs⟩
    · exact absurd rfl hne
  · rintro ⟨ctx, xs, hstart, hopens, hhangs⟩
    exact ⟨ctx, xs, hstart, hopens, hhangs.readLine⟩

/-! ## Termination -/

/-- After finitely many rounds the parser has returned: a session, or none for a line that it
refuses. -/
def Terminates (s : List UInt8) : Prop :=
  ∃ fuel, (∃ sdp, sdpParse fuel s = .ok sdp) ∨ sdpParse fuel s = .error .failed

theorem terminates_iff_stops (s : List UInt8) : Terminates s ↔ StopsOnlyByFailed s := by
  constructor
  · rintro ⟨fuel, hreturns⟩ e hstops
    have hsettled : sdpParse (fuel + (stringAt s 0).length + 2) s = sdpParse fuel s := by
      apply sdpParse_settles s fuel _ _ (by omega)
      rcases hreturns with ⟨sdp, hok⟩ | hfailed
      · simp only [hok, ne_eq, reduceCtorEq, not_false_eq_true]
      · simp only [hfailed, ne_eq, Except.error.injEq, reduceCtorEq, not_false_eq_true]
    rw [sdpParse_of_stopsAt hstops _ (by omega)] at hsettled
    rcases hreturns with ⟨sdp, hok⟩ | hfailed
    · rw [hok] at hsettled
      cases hsettled
    · rw [hfailed] at hsettled
      exact Except.error.inj hsettled
  · intro h
    refine ⟨(stringAt s 0).length + 2, ?_⟩
    rcases sdpParse_cases s _ (Nat.le_refl _) with hok | ⟨e, hstops, herror⟩
    · exact .inl hok
    · rw [h e hstops] at herror
      exact .inr herror

theorem sdpParse_terminates (s : List UInt8) :
    Terminates s ↔ ∀ ctx xs, LineStart (stringAt s 0) ctx xs → OpensLine xs →
      ¬ Crashes ctx xs ∧ ¬ Hangs ctx xs :=
  (terminates_iff_stops s).trans (stopsOnlyByFailed_iff s)

/-- The example that the comment on the parser of `r=` gives. -/
def repeatText : List UInt8 := ascii "t=3034423619 3042462419\r\nr=7d 1h 0 25h\r\n" ++ [0]

theorem repeatText_hangs : ¬ Terminates repeatText := by
  rintro ⟨fuel, hreturns⟩
  have hstart : LineStart (stringAt repeatText 0) { timing := some (0, 0) }
      (ascii "r=7d 1h 0 25h\r\n") := .next .first (.mk (by decide)) rfl
  have hdiverges := (sdpParse_diverges_iff_hangs repeatText).mpr
    ⟨_, _, hstart, .mk (by decide), .repeatLine rfl rfl rfl⟩
  rcases hreturns with ⟨sdp, hok⟩ | hfailed
  · rw [hdiverges fuel] at hok
    cases hok
  · rw [hdiverges fuel] at hfailed
    cases hfailed

/-! ## Memory safety -/

/-- No failed assertion and no access outside, and with enough fuel a session or none. -/
structure Safe (s : List UInt8) : Prop where
  inside : ∀ fuel e, sdpParse fuel s = .error e → e = .failed ∨ e = .outOfFuel
  returns : ∃ fuel, (∃ sdp, sdpParse fuel s = .ok sdp) ∨ sdpParse fuel s = .error .failed

theorem sdpParse_safe (s : List UInt8) :
    Safe s ↔ ∀ ctx xs, LineStart (stringAt s 0) ctx xs → OpensLine xs →
      ¬ Crashes ctx xs ∧ ¬ Hangs ctx xs := by
  rw [← stopsOnlyByFailed_iff]
  constructor
  · exact fun h => (terminates_iff_stops s).mp h.returns
  · intro h
    refine ⟨fun fuel e herror => ?_, (terminates_iff_stops s).mpr h⟩
    by_cases hfuel : e = .outOfFuel
    · exact .inr hfuel
    · exact .inl (h e ((sdpParse_error_iff hfuel).mp ⟨fuel, herror⟩))

/-- A blank behind the last line, a second `u=` line, an unknown letter, and an `r=` line
before any `t=` line. -/
theorem sdpParse_crashes :
    sdpParse 16 (ascii "v=0\r\n " ++ [0]) = .error .outOfBounds ∧
      sdpParse 16 (ascii "u=a\r\nu=b\r\n" ++ [0]) = .error .assertFailed ∧
      sdpParse 16 (ascii "f=v/2/4\r\n" ++ [0]) = .error .assertFailed ∧
      sdpParse 16 (ascii "r=7d 1h 0\r\n" ++ [0]) = .error .assertFailed := by
  refine ⟨?_, ?_, ?_, ?_⟩ <;> rfl

end GbStream.Sdp
