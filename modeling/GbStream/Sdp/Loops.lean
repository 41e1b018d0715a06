import GbStream.Sdp.Parsers

/-!
# The lines with loops

`r=` and `m=` test the byte behind the token they have found and, when it is a blank,
write a terminator there, which is where the scanner stands.  For `m=` that ends the
loop; the loop of `r=` takes the terminator for one more blank and never ends.
-/

namespace GbStream.Sdp

open Support Support.CString

variable {t u v : Text} {sdp : Session} {xs ys : List UInt8} {toks : List Token}
  {ws : List (List UInt8)}

inductive AtEol : List UInt8 → Prop
  | mk {c : UInt8} {xs : List UInt8} (h : c ∈ eol) : AtEol (c :: xs)

inductive AtBlank : List UInt8 → Prop
  | mk {c : UInt8} {xs : List UInt8} (h : c = space ∨ c = tab) : AtBlank (c :: xs)

theorem atEol_cons {c : UInt8} {xs : List UInt8} : AtEol (c :: xs) ↔ c ∈ eol :=
  ⟨fun | .mk h => h, .mk⟩

theorem atBlank_cons {c : UInt8} {xs : List UInt8} :
    AtBlank (c :: xs) ↔ c = space ∨ c = tab :=
  ⟨fun | .mk h => h, .mk⟩

instance : DecidablePred AtEol
  | [] => .isFalse fun h => nomatch h
  | _ :: _ => decidable_of_iff' _ atEol_cons

instance : DecidablePred AtBlank
  | [] => .isFalse fun h => nomatch h
  | _ :: _ => decidable_of_iff' _ atBlank_cons

/-- Behind a word there is a blank, the end of the line, or the end of the text. -/
theorem afterWord_cases (xs : List UInt8) :
    afterWord xs = [] ∨ AtEol (afterWord xs) ∨ AtBlank (afterWord xs) := by
  cases hxs : afterWord xs with
  | nil => exact .inl rfl
  | cons c ys =>
      right
      have hc : c ∈ blankEol := behind_head (skipBlanks xs) (by
        rw [show behind blankEol (skipBlanks xs) = c :: ys from hxs]
        rfl)
      simp only [blankEol, List.mem_cons, List.not_mem_nil, or_false] at hc
      rcases hc with rfl | rfl | rfl | rfl
      · exact .inr (.mk (.inl rfl))
      · exact .inr (.mk (.inr rfl))
      · exact .inl (.mk (by decide))
      · exact .inl (.mk (by decide))

theorem wordAt_ne_nil (xs : List UInt8) (h : AtBlank (afterWord xs)) : wordAt xs ≠ [] := by
  intro hnil
  have hsplit := upTo_append_behind blankEol (skipBlanks xs)
  rw [show upTo blankEol (skipBlanks xs) = [] from hnil, List.nil_append] at hsplit
  rw [show afterWord xs = skipBlanks xs from hsplit] at h
  cases hxs : skipBlanks xs with
  | nil =>
      rw [hxs] at h
      cases h
  | cons c ys =>
      have hhead : c ≠ space ∧ c ≠ tab := skipBlanks_head xs (by rw [hxs]; rfl)
      rw [hxs, atBlank_cons] at h
      exact h.elim hhead.1 hhead.2

theorem At.word_nil (h : At u []) : u.word = .ok (⟨u.offset, 0⟩, u) := by
  obtain ⟨junk, hdrop, -⟩ := h.drop
  have hskip : u.skipSpace = .ok u := by
    rw [Text.skipSpace, hdrop, scan_append (by decide)]
    rfl
  rw [Text.word, Text.field, hskip]
  exact (h.tokenWord blankEol).1

theorem At.terminate_offset {tok : Token} (h : At u xs) (hstop : tok.stop = u.offset) :
    u.terminate tok = .ok { u with raw := u.raw.set u.offset 0 } ∧
      At { u with raw := u.raw.set u.offset 0 } [] := by
  have hlt : u.offset < u.raw.length := Nat.lt_of_le_of_lt (Nat.le_add_right ..) h.offset_lt
  constructor
  · rw [Text.terminate, hstop, if_pos hlt]
  · rw [at_nil]
    exact List.getElem?_set_self hlt

/-! ## `r=` -/

/-- Where the loop of `r=` ends, if it does: it reads at most one offset, which the end
of the line must follow at once. -/
def repeatRest (xs : List UInt8) : Option (List UInt8) :=
  if AtEol (afterWords 2 xs) then some (afterWords 2 xs)
  else if AtEol (afterWords 3 xs) then some (afterWords 3 xs)
  else none

theorem repeatLoop_eol (h : At u xs) (heol : AtEol xs) (fuel : Nat) (offset : Option Token)
    (offsets : Growable (Option Nat) 1) :
    repeatLoop (fuel + 1) u offset offsets = .ok (u, offset, offsets) := by
  cases heol with
  | @mk c xs heol =>
      have hc : ¬ (c = space ∨ c = tab ∨ c = 0) := by
        simp only [eol, List.mem_cons, List.not_mem_nil, or_false] at heol
        rcases heol with rfl | rfl <;> decide
      rw [repeatLoop, h.char]
      simp only [ok_bind, List.headD_cons, if_neg hc]

theorem repeatLoop_forever (fuel : Nat) :
    ∀ (u : Text) (offset : Option Token) (offsets : Growable (Option Nat) 1), At u [] →
      (∀ tok ∈ offset, 0 < tok.n → tok.stop < u.raw.length) →
      repeatLoop fuel u offset offsets = .error .outOfFuel := by
  induction fuel with
  | zero => exact fun _ _ _ _ _ => rfl
  | succ fuel ih =>
      intro u offset offsets h hstop
      have happend : ∃ u' offsets', appendOffset u offset offsets = .ok (u', offsets') ∧
          At u' [] := by
        cases offset with
        | none => exact ⟨u, offsets, rfl, h⟩
        | some tok =>
            by_cases hn : tok.n > 0
            · have hlt := hstop tok rfl hn
              refine ⟨{ u with raw := u.raw.set tok.stop 0 }, offsets.push tok.ptr, ?_, ?_⟩
              · rw [appendOffset, if_pos hn, Text.terminate, if_pos hlt]
                rfl
              · exact h.nulAt [tok.stop] fun hne => absurd rfl hne
            · exact ⟨u, offsets, if_neg hn, h⟩
      obtain ⟨u', offsets', happend, h'⟩ := happend
      rw [repeatLoop, h.char]
      simp only [ok_bind, List.headD_nil, or_true, if_true, happend, h'.word_nil]
      apply ih _ _ _ h'
      rintro tok htok hn
      obtain rfl := Option.some.inj htok
      exact absurd hn (Nat.lt_irrefl 0)

theorem repeatLoop_blank (h : Scanned t u xs toks ws) (hblank : AtBlank xs) (fuel : Nat)
    (offsets : Growable (Option Nat) 1) :
    ∃ tok v, tok.n = (wordAt xs).length ∧ tok.stop = v.offset ∧
      Scanned t v (afterWord xs) (toks ++ [tok]) (ws ++ [wordAt xs]) ∧
      repeatLoop (fuel + 1) u none offsets = repeatLoop fuel v (some tok) offsets := by
  obtain ⟨tok, v, hword, hn, hstop, hscan⟩ := h.word
  refine ⟨tok, v, hn, hstop, hscan, ?_⟩
  cases hblank with
  | @mk c xs hblank =>
      have hc : c = space ∨ c = tab ∨ c = 0 := hblank.imp_right .inl
      rw [repeatLoop, h.rest.char]
      simp only [ok_bind, List.headD_cons, if_pos hc, appendOffset, hword]

theorem repeatLoop_hangs (h : Scanned t u xs toks ws) (hxs : xs = [] ∨ AtBlank xs)
    (hafter : ¬ AtEol (afterWord xs)) (fuel : Nat) (offsets : Growable (Option Nat) 1) :
    repeatLoop fuel u none offsets = .error .outOfFuel := by
  rcases hxs with rfl | hblank
  · exact repeatLoop_forever fuel u none offsets h.rest fun _ htok => nomatch htok
  cases fuel with
  | zero => rfl
  | succ fuel =>
      obtain ⟨tok, v, hn, hstop, hscan, hround⟩ := repeatLoop_blank h hblank fuel offsets
      rw [hround]
      rcases afterWord_cases xs with hnil | heol | hblank'
      · rw [hnil] at hscan
        apply repeatLoop_forever fuel v _ offsets hscan.rest
        rintro _ htok -
        obtain rfl := Option.some.inj htok
        rw [hstop]
        exact hscan.rest.offset_lt
      · exact absurd heol hafter
      · -- The offset is cut where the scanner stands.
        have hpos : tok.n > 0 := by
          rw [hn]
          exact List.length_pos_iff.mpr (wordAt_ne_nil xs hblank')
        obtain ⟨hterminate, hend⟩ := hscan.rest.terminate_offset hstop
        cases fuel with
        | zero => rfl
        | succ fuel =>
            rw [repeatLoop, hscan.rest.char]
            cases hzs : afterWord xs with
            | nil =>
                rw [hzs] at hblank'
                cases hblank'
            | cons d zs =>
                rw [hzs, atBlank_cons] at hblank'
                have hd : d = space ∨ d = tab ∨ d = 0 := hblank'.imp_right .inl
                simp only [ok_bind, List.headD_cons, if_pos hd, appendOffset, if_pos hpos,
                  hterminate, hend.word_nil]
                apply repeatLoop_forever fuel _ _ _ hend
                rintro _ htok hn'
                obtain rfl := Option.some.inj htok
                exact absurd hn' (Nat.lt_irrefl 0)

theorem parseRepeat_hangs {timing : Timing} (h : At sdp.text xs) (hcount : sdp.t.count ≠ 0)
    (hlast : sdp.lastTiming = .ok timing) (hrest : repeatRest xs = none) (fuel : Nat) :
    parseRepeat fuel sdp = .error .outOfFuel := by
  obtain ⟨a, ta, ha, -, -, hsa⟩ := h.scanned.word
  obtain ⟨b, tb, hb, -, -, hsb⟩ := hsa.word
  unfold repeatRest at hrest
  split at hrest
  · cases hrest
  rename_i hfirst
  split at hrest
  · cases hrest
  rename_i hsecond
  have hxs : afterWords 2 xs = [] ∨ AtBlank (afterWords 2 xs) := by
    rcases afterWord_cases (afterWord xs) with hnil | heol | hblank
    · exact .inl hnil
    · exact absurd heol hfirst
    · exact .inr hblank
  simp only [parseRepeat, if_neg hcount, hlast, ha, hb, ok_bind,
    repeatLoop_hangs hsb hxs hsecond, error_bind]

theorem terminateAll_append (toks toks' : List Token) :
    ∀ t : Text, t.terminateAll (toks ++ toks') =
      (t.terminateAll toks >>= fun t => t.terminateAll toks') := by
  induction toks with
  | nil => exact fun _ => rfl
  | cons tok toks ih =>
      intro t
      rw [List.cons_append, Text.terminateAll, Text.terminateAll]
      cases t.terminate tok with
      | error e => rfl
      | ok u => exact ih u

theorem terminateAll_concat (toks : List Token) {tok : Token}
    (h : t.terminateAll (toks ++ [tok]) = .ok v) :
    ∃ u, t.terminateAll toks = .ok u ∧ u.terminate tok = .ok v := by
  rw [terminateAll_append] at h
  cases hfirst : t.terminateAll toks with
  | error e =>
      rw [hfirst] at h
      cases h
  | ok u =>
      rw [hfirst] at h
      exact ⟨u, rfl, terminate_of_terminateAll h⟩

theorem repeatLoop_done (h : Scanned t u (afterWords 2 xs) toks ws) {ys : List UInt8}
    (hrest : repeatRest xs = some ys) {fuel : Nat} (hfuel : 2 ≤ fuel) :
    ∃ v offset, repeatLoop fuel u none .empty = .ok (v, offset, .empty) ∧
      ((offset = none ∧ Scanned t v ys toks ws) ∨
        ∃ tok w, offset = some tok ∧ Scanned t v ys (toks ++ [tok]) (ws ++ [w])) := by
  obtain ⟨fuel, rfl⟩ := Nat.exists_eq_add_of_le' hfuel
  unfold repeatRest at hrest
  split at hrest
  · rename_i heol
    obtain rfl := Option.some.inj hrest
    exact ⟨u, none, repeatLoop_eol h.rest heol _ _ _, .inl ⟨rfl, h⟩⟩
  · rename_i hfirst
    split at hrest
    · rename_i heol
      obtain rfl := Option.some.inj hrest
      have hblank : AtBlank (afterWords 2 xs) := by
        rcases afterWord_cases (afterWord xs) with hnil | heol' | hblank
        · exact absurd heol (by
            rw [show afterWords 3 xs = afterWord (afterWord (afterWord xs)) from rfl, hnil]
            exact fun heol => nomatch heol)
        · exact absurd heol' hfirst
        · exact hblank
      obtain ⟨tok, v, -, -, hscan, hround⟩ := repeatLoop_blank h hblank (fuel + 1) .empty
      exact ⟨v, some tok, hround.trans (repeatLoop_eol hscan.rest heol _ _ _),
        .inr ⟨tok, _, rfl, hscan⟩⟩
    · cases hrest

theorem parseRepeat_outcome {timing : Timing} (h : At sdp.text xs) (hcount : sdp.t.count ≠ 0)
    (hlast : sdp.lastTiming = .ok timing) {ys : List UInt8} (hrest : repeatRest xs = some ys)
    {fuel : Nat} (hfuel : 2 ≤ fuel) :
    Outcome (parseRepeat fuel sdp) (lineEnd ys) fun rest sdp' => ∃ v r,
      At v rest ∧ Frame sdp.text v ∧
      sdp' =
        { sdp with
          text := v
          t := sdp.t.set (sdp.t.count - 1) { timing with r := timing.r.push r } } := by
  obtain ⟨a, ta, ha, -, -, hsa⟩ := h.scanned.word
  obtain ⟨b, tb, hb, -, -, hsb⟩ := hsa.word
  obtain ⟨tl, offset, hloop, hoffset⟩ := repeatLoop_done hsb hrest hfuel
  simp only [parseRepeat, if_neg hcount, hlast, ha, hb, hloop, ok_bind]
  rcases hoffset with ⟨rfl, hscan⟩ | ⟨tok, w, rfl, hscan⟩
  · apply hscan.crlf.bind
    rintro rest t - ⟨-, -, -, v, hterminate, hclosed⟩
    simp only [List.nil_append, List.cons_append] at hterminate
    simp only [hterminate, ok_bind, appendOffset]
    exact ⟨_, rfl, v, _, hclosed.rest, hclosed.frame, rfl⟩
  · by_cases hn : tok.n > 0
    · apply hscan.crlf.bind
      rintro rest t - ⟨-, -, -, v, hterminate, hclosed⟩
      simp only [List.nil_append, List.cons_append] at hterminate
      obtain ⟨u, hfirst, hlast⟩ := terminateAll_concat [a, b] hterminate
      simp only [hfirst, ok_bind, appendOffset, if_pos hn, hlast]
      exact ⟨_, rfl, v, _, hclosed.rest, hclosed.frame, rfl⟩
    · apply hscan.dropLast.crlf.bind
      rintro rest t - ⟨-, -, -, v, hterminate, hclosed⟩
      simp only [List.nil_append, List.cons_append] at hterminate
      simp only [hterminate, ok_bind, appendOffset, if_neg hn]
      exact ⟨_, rfl, v, _, hclosed.rest, hclosed.frame, rfl⟩

/-! ## `z=` -/

theorem length_afterWord (xs : List UInt8) :
    (wordAt xs).length + (afterWord xs).length ≤ xs.length := by
  have hsplit := congrArg List.length (upTo_append_behind blankEol (skipBlanks xs))
  rw [List.length_append] at hsplit
  rw [wordAt, afterWord, hsplit]
  exact (List.dropWhile_suffix _).length_le

theorem length_afterWords_two (h : ¬ (wordAt xs = [] ∨ wordAt (afterWord xs) = [])) :
    (afterWords 2 xs).length < xs.length := by
  have hfirst := length_afterWord xs
  have hsecond := length_afterWord (afterWord xs)
  have hpos : 0 < (wordAt xs).length := List.length_pos_iff.mpr fun hnil => h (.inl hnil)
  rw [show afterWords 2 xs = afterWord (afterWord xs) from rfl]
  omega

/-- How many pairs `z=` reads, and what is left behind them. -/
def zones (xs : List UInt8) : Nat × List UInt8 :=
  if _h : wordAt xs = [] ∨ wordAt (afterWord xs) = [] then (0, afterWords 2 xs)
  else ((zones (afterWords 2 xs)).1 + 1, (zones (afterWords 2 xs)).2)
termination_by xs.length
decreasing_by all_goals exact length_afterWords_two _h

/-- The slot that the number of `r=` lines picks is one of the array. -/
def SlotOk (repeats zones : Nat) : Prop :=
  if zones < 1 then repeats < 1 else 1 ≤ repeats ∧ repeats - 1 < 8 * ((zones + 7) / 8)

instance (repeats zones : Nat) : Decidable (SlotOk repeats zones) := by
  unfold SlotOk
  infer_instance

def SlotsOk (repeats zones pairs : Nat) : Prop := ∀ k < pairs, SlotOk repeats (zones + k)

instance (repeats zones pairs : Nat) : Decidable (SlotsOk repeats zones pairs) :=
  inferInstanceAs (Decidable (∀ k < pairs, SlotOk repeats (zones + k)))

theorem slotsOk_succ {repeats zones pairs : Nat} :
    SlotsOk repeats zones (pairs + 1) ↔
      SlotOk repeats zones ∧ SlotsOk repeats (zones + 1) pairs := by
  constructor
  · intro h
    refine ⟨h 0 (Nat.succ_pos _), fun k hk => ?_⟩
    rw [show zones + 1 + k = zones + (k + 1) by omega]
    exact h (k + 1) (Nat.succ_lt_succ hk)
  · rintro ⟨hfirst, hmore⟩ k hk
    cases k with
    | zero => exact hfirst
    | succ k =>
        rw [show zones + (k + 1) = zones + 1 + k by omega]
        exact hmore k (Nat.lt_of_succ_lt_succ hk)

theorem storeAt_slotOk (timing : Timing) (zone : TimeZone) :
    (∃ z, timing.z.storeAt timing.r.count zone = some z) ↔
      SlotOk timing.r.count timing.z.count :=
  Growable.storeAt_isSome

theorem timezoneLoop_pair (h : Scanned t u xs toks ws)
    (hpair : ¬ (wordAt xs = [] ∨ wordAt (afterWord xs) = [])) (fuel : Nat) (timing : Timing) :
    ∃ v toks' ws' zone, Scanned t v (afterWords 2 xs) toks' ws' ∧
      timezoneLoop (fuel + 1) u timing =
        match timing.z.storeAt timing.r.count zone with
        | none => .error .badSlot
        | some z => timezoneLoop fuel v { timing with z } := by
  obtain ⟨a, ta, ha, hna, -, hsa⟩ := h.word
  obtain ⟨b, tb, hb, hnb, -, hsb⟩ := hsa.word
  refine ⟨tb, _, _, ⟨a.ptr, b.ptr⟩, hsb, ?_⟩
  have hn : ¬ (a.n < 1 ∨ b.n < 1) := by
    simpa only [hna, hnb, Nat.lt_one_iff, List.length_eq_zero_iff] using hpair
  change (u.word >>= _) = _
  rw [ha]
  change (ta.word >>= _) = _
  rw [hb]
  exact if_neg hn

theorem timezoneLoop_done (h : Scanned t u xs toks ws)
    (hpair : wordAt xs = [] ∨ wordAt (afterWord xs) = []) (fuel : Nat) (timing : Timing) :
    ∃ v toks' ws', Scanned t v (afterWords 2 xs) toks' ws' ∧
      timezoneLoop (fuel + 1) u timing = .ok (v, timing) := by
  obtain ⟨a, ta, ha, hna, -, hsa⟩ := h.word
  obtain ⟨b, tb, hb, hnb, -, hsb⟩ := hsa.word
  refine ⟨tb, _, _, hsb, ?_⟩
  have hn : a.n < 1 ∨ b.n < 1 := by
    simpa only [hna, hnb, Nat.lt_one_iff, List.length_eq_zero_iff] using hpair
  simp only [timezoneLoop, ha, hb, ok_bind, if_pos hn]

theorem timezoneLoop_outcome (fuel : Nat) :
    ∀ {u : Text} {xs : List UInt8} {toks : List Token} {ws : List (List UInt8)}
      (timing : Timing), Scanned t u xs toks ws → xs.length < fuel →
      if SlotsOk timing.r.count timing.z.count (zones xs).1 then
        ∃ v toks' ws' z, timezoneLoop fuel u timing = .ok (v, { timing with z }) ∧
          Scanned t v (zones xs).2 toks' ws' ∧ z.count = timing.z.count + (zones xs).1
      else timezoneLoop fuel u timing = .error .badSlot := by
  induction fuel with
  | zero => exact fun _ _ hfuel => absurd hfuel (Nat.not_lt_zero _)
  | succ fuel ih =>
      intro u xs toks ws timing h hfuel
      rw [zones]
      by_cases hpair : wordAt xs = [] ∨ wordAt (afterWord xs) = []
      · obtain ⟨v, toks', ws', hscan, hloop⟩ := timezoneLoop_done h hpair fuel timing
        have hnone : SlotsOk timing.r.count timing.z.count 0 := fun _ hk =>
          absurd hk (Nat.not_lt_zero _)
        rw [dif_pos hpair, if_pos hnone]
        exact ⟨v, toks', ws', timing.z, hloop, hscan, rfl⟩
      · obtain ⟨v, toks', ws', zone, hscan, hloop⟩ := timezoneLoop_pair h hpair fuel timing
        have hlength := length_afterWords_two hpair
        rw [dif_neg hpair, hloop]
        simp only [slotsOk_succ]
        cases hstore : timing.z.storeAt timing.r.count zone with
        | none =>
            have hslot : ¬ SlotOk timing.r.count timing.z.count := by
              rw [← storeAt_slotOk timing zone, hstore]
              rintro ⟨z, hz⟩
              cases hz
            rw [if_neg fun hboth => hslot hboth.1]
        | some z =>
            have hslot : SlotOk timing.r.count timing.z.count :=
              (storeAt_slotOk timing zone).mp ⟨z, hstore⟩
            have hcount : z.count = timing.z.count + 1 := Growable.count_of_storeAt hstore
            have hrest := ih { timing with z } hscan (by omega)
            simp only [hcount] at hrest
            simp only [hslot, true_and]
            split
            · rename_i hmore
              rw [if_pos hmore] at hrest
              obtain ⟨v', toks'', ws'', z', hloop', hscan', hcount'⟩ := hrest
              exact ⟨v', toks'', ws'', z', hloop', hscan', by omega⟩
            · rename_i hmore
              rwa [if_neg hmore] at hrest

theorem parseTimezone_outcome {timing : Timing} (h : At sdp.text xs) (hcount : sdp.t.count ≠ 0)
    (hlast : sdp.lastTiming = .ok timing)
    (hslots : SlotsOk timing.r.count timing.z.count (zones xs).1) {fuel : Nat}
    (hfuel : xs.length < fuel) :
    Outcome (parseTimezone fuel sdp) (lineEnd (zones xs).2) fun rest sdp' => ∃ v z,
      At v rest ∧ Frame sdp.text v ∧ z.count = timing.z.count + (zones xs).1 ∧
      sdp' = { sdp with text := v, t := sdp.t.set (sdp.t.count - 1) { timing with z } } := by
  have hloop := timezoneLoop_outcome fuel timing h.scanned hfuel
  rw [if_pos hslots] at hloop
  obtain ⟨v, toks', ws', z, hloop, hscan, hz⟩ := hloop
  simp only [parseTimezone, if_neg hcount, hlast, hloop, ok_bind]
  apply hscan.crlf.bind
  rintro rest t - ⟨hraw, hat, hle, -⟩
  exact ⟨_, rfl, t, z, hat, ⟨by rw [hraw], hle, fun i _ => by rw [hraw]⟩, hz, rfl⟩

theorem parseTimezone_badSlot {timing : Timing} (h : At sdp.text xs) (hcount : sdp.t.count ≠ 0)
    (hlast : sdp.lastTiming = .ok timing)
    (hslots : ¬ SlotsOk timing.r.count timing.z.count (zones xs).1) {fuel : Nat}
    (hfuel : xs.length < fuel) : parseTimezone fuel sdp = .error .badSlot := by
  have hloop := timezoneLoop_outcome fuel timing h.scanned hfuel
  rw [if_neg hslots] at hloop
  simp only [parseTimezone, if_neg hcount, hlast, hloop, ok_bind, error_bind]

/-! ## `m=` -/

/-- What `m=` leaves: nothing, when a blank follows the sixteenth word. -/
@[irreducible] def mediaRest (xs : List UInt8) : List UInt8 :=
  if AtBlank (afterWords 16 xs) then [] else afterWords 16 xs

theorem Scanned.lastWord (n : Nat) :
    ∀ {u : Text} {ys : List UInt8} (tok : Token), Scanned t u ys toks ws →
      ∃ tok' v, lastWord (n + 1) tok u = .ok (tok', v) ∧
        tok'.n = (wordAt (afterWords n ys)).length ∧ tok'.stop = v.offset ∧
        Scanned t v (afterWords (n + 1) ys) (toks ++ [tok'])
          (ws ++ [wordAt (afterWords n ys)]) := by
  induction n with
  | zero =>
      intro u ys tok h
      obtain ⟨tok', v, hword, hn, hstop, hscan⟩ := h.word
      refine ⟨tok', v, ?_, hn, hstop, hscan⟩
      simp only [Sdp.lastWord, hword, ok_bind]
  | succ n ih =>
      intro u ys tok h
      obtain ⟨tok', v, hword, -, -, hscan⟩ := h.word
      obtain ⟨tok'', v', hlast, hn, hstop, hscan'⟩ := ih tok' hscan.dropLast
      refine ⟨tok'', v', ?_, hn, hstop, hscan'⟩
      rw [Sdp.lastWord, hword]
      exact hlast

theorem formatLoop_nul {fmt : Token} (h : At u []) (hstop : fmt.stop = u.offset) {fuel : Nat}
    (hfuel : 0 < fuel) (formats : Growable (Option Nat) 5) :
    formatLoop fuel fmt u formats = .ok (fmt, u, formats) := by
  obtain ⟨fuel, rfl⟩ := Nat.exists_eq_add_of_le' hfuel
  rw [at_nil] at h
  rw [formatLoop, hstop, h]
  rfl

theorem formatLoop_end {fmt : Token} (h : At u xs) (hstop : fmt.stop = u.offset)
    (hblank : ¬ AtBlank xs) {fuel : Nat} (hfuel : 0 < fuel)
    (formats : Growable (Option Nat) 5) :
    formatLoop fuel fmt u formats = .ok (fmt, u, formats) := by
  obtain ⟨fuel, rfl⟩ := Nat.exists_eq_add_of_le' hfuel
  cases xs with
  | nil => exact formatLoop_nul h hstop hfuel formats
  | cons c xs =>
      have hc : ¬ (c = space ∨ c = tab) := fun hc => hblank (.mk hc)
      obtain ⟨junk, hget⟩ := h.getElem? 0
      have hchar : u.raw[fmt.stop]? = some c := by rw [hstop]; exact hget
      simp only [formatLoop, hchar, if_neg hc]

/-- A blank behind the token: the loop cuts the text where the scanner stands. -/
theorem formatLoop_blank {fmt : Token} (h : At u xs) (hstop : fmt.stop = u.offset)
    (hblank : AtBlank xs) {fuel : Nat} (hfuel : 2 ≤ fuel)
    (formats : Growable (Option Nat) 5) :
    At { u with raw := u.raw.set u.offset 0 } [] ∧
      formatLoop fuel fmt u formats =
        .ok (⟨u.offset, 0⟩, { u with raw := u.raw.set u.offset 0 }, formats.push fmt.ptr) := by
  obtain ⟨fuel, rfl⟩ := Nat.exists_eq_add_of_le' hfuel
  obtain ⟨hterminate, hend⟩ := h.terminate_offset hstop
  refine ⟨hend, ?_⟩
  cases hblank with
  | @mk c xs hc =>
      obtain ⟨junk, hget⟩ := h.getElem? 0
      have hchar : u.raw[fmt.stop]? = some c := by rw [hstop]; exact hget
      rw [formatLoop]
      simp only [hchar, if_pos hc, hterminate, ok_bind, hend.word_nil]
      exact formatLoop_nul hend rfl (Nat.succ_pos _) _

/-- The media that `m=` adds.  The formats between the protocol and the sixteenth word
are not kept. -/
structure MediaOf (v : Text) (xs : List UInt8) (a b c : Token) (m : Media) : Prop where
  media : m = { (default : Media) with media := a.ptr, port := b.ptr, proto := c.ptr, fmt := m.fmt }
  shown : AtEol (afterWords 16 xs) →
    List.Forall₂ (fun (tok : Token) w => Shown v tok.ptr w) [a, b, c] (wordsAt 3 xs)
  strings : List.Forall₂ (fun (tok : Token) w => IsString v.raw tok.ptr w) [a, b, c] (wordsAt 3 xs)
  fmt : wordAt (afterWords 15 xs) = [] → m.fmt = .empty

theorem not_atEol_of_atBlank (h : AtBlank xs) : ¬ AtEol xs := by
  rintro ⟨heol⟩
  rw [atBlank_cons] at h
  rcases h with rfl | rfl <;> exact absurd heol (by decide)

theorem ne_nil_of_atEol (h : AtEol xs) : xs ≠ [] := by
  rintro rfl
  cases h

theorem parseMedia_outcome (h : At sdp.text xs) {fuel : Nat} (hfuel : 2 ≤ fuel) :
    Outcome (parseMedia fuel sdp) (lineEnd (mediaRest xs)) fun rest sdp' => ∃ v a b c m,
      At v rest ∧ Frame sdp.text v ∧ MediaOf v xs a b c m ∧
      sdp' = { sdp with text := v, m := sdp.m.push m } := by
  obtain ⟨a, ta, ha, hna, -, hsa⟩ := h.scanned.word
  obtain ⟨b, tb, hb, hnb, -, hsb⟩ := hsa.word
  obtain ⟨c, tc, hc, hnc, -, hsc⟩ := hsb.word
  obtain ⟨d, td, hd, hnd, hstop, hsd⟩ := hsc.lastWord 12 c
  have hsd' := hsd.dropLast
  simp only [List.nil_append, List.cons_append] at hsd hsd'
  simp only [parseMedia, ha, hb, hc, hd, ok_bind]
  rw [mediaRest]
  by_cases hblank : AtBlank (afterWords 16 xs)
  · obtain ⟨hend, hloop⟩ := formatLoop_blank hsd.rest hstop hblank hfuel .empty
    rw [if_pos hblank]
    simp only [hloop, ok_bind]
    apply hend.tokenCrlf.bind
    rintro rest t hrest ⟨hraw, hat, hle, -⟩
    obtain rfl : [] = rest := Option.some.inj hrest
    obtain ⟨hi, htokens, hhi, -⟩ := hsd'.tokens
    have htraw : t.raw = nulAt sdp.text.raw [td.offset] := by
      rw [hraw, hsd.raw]
      rfl
    have hlength : td.offset < t.raw.length := by
      have hoffset := hsd.rest.offset_lt
      rw [hsd.raw] at hoffset
      rw [htraw, length_nulAt]
      omega
    have hterminate := terminateAll_eq [a, b, c] t fun tok hmem =>
      Nat.lt_of_le_of_lt (Nat.le_trans (htokens.high tok hmem) hhi) hlength
    simp only [hterminate, ok_bind, gt_iff_lt, Nat.lt_irrefl, if_false]
    refine ⟨_, rfl, _, a, b, c, _, hat.nulAt _ fun hne => absurd rfl hne, ?_, ⟨rfl, ?_, ?_, ?_⟩,
      rfl⟩
    · apply Frame.of_nulAt (td.offset :: [a, b, c].map Token.stop)
      · rw [htraw]
        rfl
      · exact Nat.le_trans hsd.le hle
      · rw [List.forall_mem_cons]
        exact ⟨hsd.le, htokens.stop_ge⟩
    · exact fun heol => absurd heol (not_atEol_of_atBlank hblank)
    · have hraw : hi < sdp.text.raw.length := by
        rw [htraw, length_nulAt] at hlength
        omega
      have hbehind : ∀ i ∈ [td.offset], hi ≤ i := fun i hi => by rwa [List.mem_singleton.mp hi]
      apply (htokens.isString_behind hraw hbehind).imp
      rintro tok w ⟨-, -, hstring⟩
      rw [htraw]
      exact hstring
    · exact fun hnil => absurd hnil (wordAt_ne_nil (afterWords 15 xs) hblank)
  · have hloop := formatLoop_end hsd.rest hstop hblank (Nat.lt_of_lt_of_le Nat.two_pos hfuel) .empty
    rw [if_neg hblank]
    simp only [hloop, ok_bind]
    by_cases hn : d.n > 0
    · apply hsd.crlf.bind
      rintro rest t - ⟨-, -, -, v, hterminate, hclosed⟩
      obtain ⟨u, hfirst, hlast⟩ := terminateAll_concat [a, b, c] hterminate
      simp only [hfirst, ok_bind, if_pos hn, hlast]
      refine ⟨_, rfl, v, a, b, c, _, hclosed.rest, hclosed.frame, ⟨rfl, ?_, ?_, ?_⟩, rfl⟩
      · intro heol
        have hshown := hclosed.shown (ne_nil_of_atEol heol)
        simp only [List.forall₂_cons] at hshown
        obtain ⟨hshowna, hshownb, hshownc, -⟩ := hshown
        exact .cons hshowna (.cons hshownb (.cons hshownc .nil))
      · have hstrings := hclosed.strings
        simp only [List.forall₂_cons] at hstrings
        obtain ⟨hstringa, hstringb, hstringc, -⟩ := hstrings
        exact .cons hstringa (.cons hstringb (.cons hstringc .nil))
      · intro hnil
        rw [hnd] at hn
        exact absurd hnil (List.length_pos_iff.mp hn)
    · apply hsd'.crlf.bind
      rintro rest t - ⟨-, -, -, v, hterminate, hclosed⟩
      simp only [hterminate, ok_bind, if_neg hn]
      refine ⟨_, rfl, v, a, b, c, _, hclosed.rest, hclosed.frame,
        ⟨rfl, ?_, hclosed.strings, fun _ => rfl⟩, rfl⟩
      exact fun heol => hclosed.shown (ne_nil_of_atEol heol)

end GbStream.Sdp
