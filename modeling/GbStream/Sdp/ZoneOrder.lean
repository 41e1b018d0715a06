import GbStream.Sdp.Slots

/-!
# Zones in order

The points of the parser are those of the reading of the text: every line start, and in a line
what is left of it.  So the text alone says whether each pair of `z=` finds as many zones as
repeats.
-/

namespace GbStream.Sdp

open Support Support.CString

variable {s text : List UInt8} {sdp sdp₁ sdp' : Session} {ctx : Context} {xs ys body : List UInt8}
  {kind : LineKind} {fuel : Nat} {t t' : Text} {timing : Timing} {zone : TimeZone} {x : Entries}

/-! ## Line starts -/

structure Starts (text : List UInt8) (sdp : Session) (ctx : Context) (xs : List UInt8) :
    Prop where
  start : LineStart text ctx xs
  rest : At sdp.text xs
  tracks : Tracks ctx sdp

theorem starts_first (s : List UInt8) :
    Starts (stringAt s 0) { text := { raw := strdup s, offset := 0 } } {} (stringAt s 0) where
  start := .first
  rest := (stands_first s (Nat.le_refl _)).rest
  tracks := (stands_first s (Nat.le_refl _)).tracks

theorem Starts.head (h : Starts text sdp ctx xs)
    (head : nextLine sdp = .ok (some (kind, sdp₁))) :
    OpensLine xs ∧ (∃ c body, lineHead xs = .ok (c, body) ∧ (c, kind) ∈ lineKinds ∧
      At sdp₁.text body) ∧ ∀ fuel, parseLine fuel sdp = parseBody fuel sdp₁ kind := by
  obtain ⟨c, hchar, head⟩ := bind_eq_ok.mp head
  rw [h.rest.char] at hchar
  obtain rfl := Except.ok.inj hchar
  split at head
  · cases head
  rename_i hgoes
  obtain ⟨⟨c, t⟩, hfront, head⟩ := bind_eq_ok.mp head
  have hopens : OpensLine xs := by
    cases xs with
    | nil => exact absurd (.inl rfl) hgoes
    | cons c xs =>
        refine .mk fun hmem => hgoes (.inr ?_)
        simpa [eol] using hmem
  have hne : xs ≠ [] := by
    rintro rfl
    cases hopens
  have hlineFront := h.rest.lineFront hne
  dsimp only at head
  cases hkind : lineKinds.lookup c with
  | none =>
      rw [hkind] at head
      cases head
  | some kind' =>
      rw [hkind] at head
      cases head
      refine ⟨hopens, ?_, fun fuel => by rw [parseLine_eq, hfront, ok_bind]; simp only [hkind]⟩
      cases hhead : lineHead xs with
      | error e =>
          rw [hhead] at hlineFront
          rw [show sdp.text.lineFront = .error e from hlineFront] at hfront
          cases hfront
      | ok r =>
          obtain ⟨c', body⟩ := r
          rw [hhead] at hlineFront
          obtain ⟨u, hfront', hat, -⟩ := hlineFront
          rw [hfront] at hfront'
          cases hfront'
          exact ⟨c, body, rfl, letter_of_lookup hkind, hat⟩

theorem Starts.next (h : Starts text sdp ctx xs)
    (head : nextLine sdp = .ok (some (kind, sdp₁))) (hbody : parseBody fuel sdp₁ kind = .ok sdp') :
    ∃ ctx' xs', Starts text sdp' ctx' xs' := by
  obtain ⟨hopens, -, hline⟩ := h.head head
  have hne : xs ≠ [] := by
    rintro rfl
    cases hopens
  rw [← hline] at hbody
  have hmore : parseLine (fuel + (xs.length + 2)) sdp = .ok sdp' := by
    rw [← hbody]
    apply parseLine_settles sdp fuel _ _ (Nat.le_add_right ..)
    dsimp only
    rw [hbody]
    exact fun heq => nomatch heq
  have hrefines := parseLine_refines h.rest hne h.tracks (Nat.le_add_left _ fuel)
  rw [hmore] at hrefines
  cases hread : readLine ctx xs with
  | error e =>
      rw [hread] at hrefines
      cases hrefines with
      | stops hr => cases hr
  | ok r =>
      obtain ⟨ctx', rest⟩ := r
      rw [hread] at hrefines
      cases hrefines with
      | leaves hr hat hframe htracks =>
          obtain rfl := Except.ok.inj hr
          exact ⟨ctx', rest, h.start.next hopens hread, hat, htracks⟩

/-! ## In a line -/

/-- In a line from a line start; `rest` is what its parser still does, with the fuel left. -/
def Inside (text : List UInt8) (ctx : Context) (xs : List UInt8) (sdp : Session)
    (kind : LineKind) (rest : Nat → Except Stop Session) : Prop :=
  ∃ sdp₀, Starts text sdp₀ ctx xs ∧ nextLine sdp₀ = .ok (some (kind, sdp)) ∧
    ∃ n, ∀ fuel, parseBody (fuel + n) sdp kind = rest fuel

theorem Inside.round {rest rest' : Nat → Except Stop Session}
    (h : Inside text ctx xs sdp kind rest) (hround : ∀ fuel, rest (fuel + 1) = rest' fuel) :
    Inside text ctx xs sdp kind rest' := by
  obtain ⟨sdp₀, hstarts, head, n, hrest⟩ := h
  refine ⟨sdp₀, hstarts, head, n + 1, fun fuel => ?_⟩
  rw [← hround, ← hrest, Nat.add_assoc, Nat.add_comm 1 n]

theorem Inside.close {rest : Nat → Except Stop Session} (h : Inside text ctx xs sdp kind rest)
    (hclose : rest 1 = .ok sdp') : ∃ ctx' xs', Starts text sdp' ctx' xs' := by
  obtain ⟨sdp₀, hstarts, head, n, hrest⟩ := h
  exact hstarts.next head ((hrest _).trans hclose)

/-- What is left of a `z=` line, and how many zones its timing has so far. -/
def ZonesLeft (ctx : Context) (xs : List UInt8) (t : Text) (timing : Timing) : Prop :=
  ∃ body count k ys, lineHead xs = .ok (byte 'z', body) ∧
    ctx.timing = some (timing.r.count, count) ∧ timing.z.count = count + k ∧ At t ys ∧
    (zones body).1 = k + (zones ys).1

theorem At.zoneAt (h : At t ys) :
    if wordAt ys = [] ∨ wordAt (afterWord ys) = [] then ∃ u, zoneAt t = .ok (none, u)
    else ∃ zone u, zoneAt t = .ok (some zone, u) ∧ At u (afterWords 2 ys) := by
  obtain ⟨a, ta, ha, hna, -, hsa⟩ := h.scanned.word
  obtain ⟨b, tb, hb, hnb, -, hsb⟩ := hsa.word
  have hn : (a.n < 1 ∨ b.n < 1) ↔ (wordAt ys = [] ∨ wordAt (afterWord ys) = []) := by
    simp only [hna, hnb, Nat.lt_one_iff, List.length_eq_zero_iff]
  split
  · rename_i hpair
    refine ⟨tb, ?_⟩
    simp only [Sdp.zoneAt, ha, hb, ok_bind, if_pos (hn.mpr hpair)]
  · rename_i hpair
    refine ⟨⟨a.ptr, b.ptr⟩, tb, ?_, hsb.rest⟩
    simp only [Sdp.zoneAt, ha, hb, ok_bind, if_neg (mt hn.mp hpair)]

theorem zones_of_zoneAt (h : At t ys) (hround : zoneAt t = .ok (some zone, t')) :
    At t' (afterWords 2 ys) ∧ (zones ys).1 = (zones (afterWords 2 ys)).1 + 1 := by
  have hzone := h.zoneAt
  split at hzone
  · obtain ⟨u, hnone⟩ := hzone
    rw [hround] at hnone
    cases hnone
  · rename_i hpair
    obtain ⟨zone', u, hsome, hat⟩ := hzone
    rw [hround] at hsome
    cases hsome
    refine ⟨hat, ?_⟩
    rw [zones.eq_def ys, dif_neg hpair]

theorem ZonesLeft.round {z : Growable TimeZone 1} (h : ZonesLeft ctx xs t timing)
    (hround : zoneAt t = .ok (some zone, t')) (hz : z.count = timing.z.count + 1) :
    ZonesLeft ctx xs t' { timing with z } := by
  obtain ⟨body, count, k, ys, head, htiming, hcount, hat, hzones⟩ := h
  obtain ⟨hat', hnext⟩ := zones_of_zoneAt hat hround
  refine ⟨body, count, k + 1, afterWords 2 ys, head, htiming, ?_, hat', ?_⟩
  · rw [hz, hcount, Nat.add_assoc]
  · rw [hzones, hnext]
    omega

def Located (text : List UInt8) : Point → Prop
  | .line sdp => ∃ ctx xs, Starts text sdp ctx xs
  | .repeats sdp timing interval duration t offset offsets =>
      ∃ ctx xs, Inside text ctx xs sdp .r fun fuel => do
        let (t, offset, offsets) ← repeatLoop fuel t offset offsets
        closeRepeat sdp timing interval duration t offset offsets
  | .zones sdp t timing =>
      ∃ ctx xs, ZonesLeft ctx xs t timing ∧ Inside text ctx xs sdp .z fun fuel => do
        let (t, timing) ← timezoneLoop fuel t timing
        closeTimezone sdp timing t
  | .formats sdp media port proto fmt t formats =>
      ∃ ctx xs, Inside text ctx xs sdp .m fun fuel => do
        let (fmt, t, formats) ← formatLoop fuel fmt t formats
        closeMedia sdp media port proto fmt t formats
  | .outside => True

theorem Starts.zonesLeft (h : Starts text sdp ctx xs)
    (head : nextLine sdp = .ok (some (.z, sdp₁))) (hopen : openTimezone sdp₁ = .ok timing) :
    ZonesLeft ctx xs sdp₁.text timing := by
  obtain ⟨-, ⟨c, body, hhead, hletter, hat⟩, -⟩ := h.head head
  obtain rfl : c = byte 'z' := by simpa [lineKinds] using hletter
  obtain ⟨t, rfl⟩ := nextLine_text head
  unfold openTimezone at hopen
  split at hopen
  · cases hopen
  · rename_i hcount
    have htiming := h.tracks.timing
    cases hctx : ctx.timing with
    | none =>
        rw [hctx] at htiming
        exact absurd htiming hcount
    | some counts =>
        obtain ⟨repeats, count⟩ := counts
        rw [hctx] at htiming
        obtain ⟨-, timing', hlast, rfl, rfl⟩ := htiming
        obtain rfl : timing = timing' := Except.ok.inj (hopen.symm.trans hlast)
        exact ⟨body, timing.z.count, 0, body, hhead, hctx, rfl, hat, (Nat.zero_add _).symm⟩

theorem Located.step {st st' : Point × Entries} (h : Located text st.1) (hstep : Step st st') :
    Located text st'.1 := by
  cases hstep with
  | plain head body happly =>
      obtain ⟨ctx, xs, hstarts⟩ := h
      exact hstarts.next head body
  | openRepeat head hopen =>
      obtain ⟨ctx, xs, hstarts⟩ := h
      refine ⟨ctx, xs, _, hstarts, head, 0, fun fuel => ?_⟩
      rw [Nat.add_zero, parseBody, parseRepeat_eq, hopen]
      rfl
  | repeats round =>
      obtain ⟨ctx, xs, hinside⟩ := h
      refine ⟨ctx, xs, hinside.round fun fuel => ?_⟩
      rw [repeatLoop_succ, round]
      rfl
  | closeRepeat round hclose =>
      obtain ⟨ctx, xs, hinside⟩ := h
      apply hinside.close
      rw [repeatLoop_succ, round]
      exact hclose
  | openTimezone head hopen =>
      obtain ⟨ctx, xs, hstarts⟩ := h
      refine ⟨ctx, xs, hstarts.zonesLeft head hopen, _, hstarts, head, 0, fun fuel => ?_⟩
      rw [Nat.add_zero, parseBody, parseTimezone_eq, hopen]
      rfl
  | zones round store =>
      obtain ⟨ctx, xs, hleft, hinside⟩ := h
      refine ⟨ctx, xs, hleft.round round (Growable.count_of_storeAt store), ?_⟩
      refine hinside.round fun fuel => ?_
      rw [timezoneLoop_succ, round]
      simp only [ok_bind, store]
  | outside round store => exact trivial
  | closeTimezone round hclose =>
      obtain ⟨ctx, xs, -, hinside⟩ := h
      apply hinside.close
      rw [timezoneLoop_succ, round]
      exact hclose
  | openMedia head hopen =>
      obtain ⟨ctx, xs, hstarts⟩ := h
      refine ⟨ctx, xs, _, hstarts, head, 0, fun fuel => ?_⟩
      rw [Nat.add_zero, parseBody, parseMedia_eq, hopen]
      rfl
  | formats round =>
      obtain ⟨ctx, xs, hinside⟩ := h
      refine ⟨ctx, xs, hinside.round fun fuel => ?_⟩
      rw [formatLoop_succ, round]
      rfl
  | closeMedia round hclose =>
      obtain ⟨ctx, xs, hinside⟩ := h
      apply hinside.close
      rw [formatLoop_succ, round]
      exact hclose

theorem reachable_located {st : Point × Entries} (h : (parsing s).Reachable st) :
    Located (stringAt s 0) st.1 := by
  have hinit : ∀ st, (parsing s).init st → Located (stringAt s 0) st.1 := by
    rintro st rfl
    exact ⟨{}, stringAt s 0, starts_first s⟩
  have hlocated := h.invariant hinit fun st _ st' hlocated _ hstep => hlocated.step hstep
  exact hlocated

/-! ## Texts that misplace a zone -/

/-- A `z=` line with a pair before which the numbers of zones and repeats differ. -/
inductive Misplaces (ctx : Context) (xs : List UInt8) : Prop
  | mk {body : List UInt8} {repeats count k : Nat} (head : lineHead xs = .ok (byte 'z', body))
      (timing : ctx.timing = some (repeats, count)) (hk : k < (zones body).1)
      (hne : count + k ≠ repeats)

theorem inOrder_of_lines
    (h : ∀ ctx xs, LineStart (stringAt s 0) ctx xs → OpensLine xs → ¬ Misplaces ctx xs)
    {st : Point × Entries} (hst : (parsing s).Reachable st) : InOrder st.1 := by
  have hlocated := reachable_located hst
  obtain ⟨point, x⟩ := st
  cases point with
  | zones sdp t timing =>
      intro zone t' round
      obtain ⟨ctx, xs, hleft, hinside⟩ := hlocated
      obtain ⟨body, count, k, ys, hhead, htiming, hcount, hat, hzones⟩ := hleft
      obtain ⟨sdp₀, hstarts, head, -⟩ := hinside
      obtain ⟨-, hnext⟩ := zones_of_zoneAt hat round
      by_contra hne
      apply h ctx xs hstarts.start (hstarts.head head).1
      exact .mk hhead htiming (k := k) (by omega) (by omega)
  | line | repeats | formats | outside => exact trivial

/-- From a line start that opens a line the parser goes on to its body. -/
theorem nextLine_of_head (h : At sdp.text xs) (hopens : OpensLine xs) {c : UInt8}
    (head : lineHead xs = .ok (c, body)) (hkind : lineKinds.lookup c = some kind) :
    ∃ t, At t body ∧ nextLine sdp = .ok (some (kind, { sdp with text := t })) := by
  have hne : xs ≠ [] := by
    rintro rfl
    cases hopens
  have hfront := h.lineFront hne
  rw [head] at hfront
  obtain ⟨t, hfront, hat, -⟩ := hfront
  refine ⟨t, hat, ?_⟩
  rw [nextLine, h.char, ok_bind, if_neg (h.goesOn hopens), hfront, ok_bind]
  simp only [hkind]

theorem LineStart.reached (h : LineStart (stringAt s 0) ctx xs) :
    ∃ sdp x, (parsing s).Reachable (.line sdp, x) ∧ Starts (stringAt s 0) sdp ctx xs := by
  induction h with
  | first => exact ⟨_, {}, .init rfl, starts_first s⟩
  | @next ctx ctx' xs rest hstart hopens hread ih =>
      obtain ⟨sdp, x, hreached, hstarts⟩ := ih
      have hne : xs ≠ [] := by
        rintro rfl
        cases hopens
      obtain ⟨⟨c, body⟩, head, hbody⟩ := bind_eq_ok.mp hread
      have hrefines := parseLine_refines hstarts.rest hne hstarts.tracks (Nat.le_refl _)
      rw [hread] at hrefines
      cases hrefines with
      | @leaves _ _ sdp' hline hat hframe htracks =>
          cases hkind : lineKinds.lookup c with
          | none =>
              simp only [hkind] at hbody
              cases hbody
          | some kind =>
              obtain ⟨t, -, hnext⟩ := nextLine_of_head hstarts.rest hopens head hkind
              rw [(hstarts.head hnext).2.2] at hline
              obtain ⟨x', hreached'⟩ := parseBody_comesTo hreached hnext hline
              exact ⟨sdp', x', hreached', hstart.next hopens hread, hat, htracks⟩

theorem zones_inOrder (h : ∀ st, (parsing s).Reachable st → InOrder st.1) (pairs : Nat) :
    ∀ {t : Text} {timing : Timing} {x : Entries} {ys : List UInt8}, At t ys →
      (zones ys).1 = pairs → (parsing s).Reachable (.zones sdp t timing, x) →
      ∀ k < pairs, timing.z.count + k = timing.r.count := by
  induction pairs with
  | zero => exact fun _ _ _ k hk => absurd hk (Nat.not_lt_zero k)
  | succ pairs ih =>
      intro t timing x ys hat hpairs hreached k hk
      have hzone := hat.zoneAt
      rw [zones] at hpairs
      split at hpairs
      · cases hpairs
      · rename_i hpair
        rw [if_neg hpair] at hzone
        obtain ⟨zone, u, round, hat'⟩ := hzone
        have horder : timing.z.count = timing.r.count := h _ hreached zone u round
        have hstore : timing.z.storeAt timing.r.count zone = some (timing.z.push zone) := by
          rw [← horder, Growable.storeAt_count]
        have hmore := ih hat' (Nat.succ.inj hpairs) (reaches hreached (.zones round hstore))
        cases k with
        | zero => exact horder
        | succ k =>
            have hk' : (timing.z.push zone).count + k = timing.r.count :=
              hmore k (Nat.lt_of_succ_lt_succ hk)
            rw [Growable.count_push] at hk'
            omega

theorem lines_inOrder (h : ∀ st, (parsing s).Reachable st → InOrder st.1)
    (hstart : LineStart (stringAt s 0) ctx xs) (hopens : OpensLine xs) : ¬ Misplaces ctx xs := by
  rintro ⟨head, htiming, hk, hne⟩
  obtain ⟨sdp, x, hreached, hstarts⟩ := hstart.reached
  obtain ⟨t, hat, hnext⟩ := nextLine_of_head hstarts.rest hopens head rfl
  have htracks := hstarts.tracks.timing
  rw [htiming] at htracks
  obtain ⟨hcount, timing, hlast, rfl, rfl⟩ := htracks
  have hopen : openTimezone { sdp with text := t } = .ok timing := (if_neg hcount).trans hlast
  exact hne (zones_inOrder h _ hat rfl (reaches hreached (.openTimezone hnext hopen)) _ hk)

/-- The lists are sound at every point of the parser exactly if it comes to no line that
misplaces a zone. -/
theorem parsing_sound_iff (s : List UInt8) :
    (∀ st, (parsing s).Reachable st → Sound st) ↔
      ∀ ctx xs, LineStart (stringAt s 0) ctx xs → OpensLine xs → ¬ Misplaces ctx xs := by
  rw [sound_iff_inOrder]
  constructor
  · exact fun h ctx xs hstart hopens => lines_inOrder h hstart hopens
  · exact fun h st hst => inOrder_of_lines h hst

/-- Two `z=` lines with an `r=` line in between. -/
def zonesText : List UInt8 := ascii "t=0 0\r\nz=1 2\r\nr=7 1\r\nz=3 4 5 6\r\n" ++ [0]

/-- The first timing counts three zones and has nothing in the slot of the third. -/
def thirdZoneMissing (sdp : Session) : Bool :=
  sdp.t.count = 1 ∧
    (sdp.t.get? 0).any fun timing => timing.z.count = 3 ∧ (timing.z.get? 2).isNone

/-- The third pair is stored over the second. -/
theorem zonesText_unsound : ¬ ∀ st, (parsing zonesText).Reachable st → Sound st := by
  intro h
  have hrun : (sdpParse 64 zonesText).toOption.any thirdZoneMissing = true := by decide +kernel
  obtain ⟨sdp, hparse, hmissing⟩ := sdpParse_of_any hrun
  obtain ⟨x, hx⟩ := sdpParse_comesTo hparse
  have hsound : sdp.Placed TimingPlaced x := h _ hx
  simp only [thirdZoneMissing, decide_eq_true_eq, Option.any_eq_true] at hmissing
  obtain ⟨hcount, timing, hget, hzones, hnone⟩ := hmissing
  obtain ⟨timing', y, -, hget', hplaced⟩ := hsound.t.entry (k := 0) (by omega)
  obtain rfl : timing = timing' := Option.some.inj (hget.symm.trans hget')
  obtain ⟨zone, _, -, hzone, -⟩ := hplaced.z.entry (k := 2) (by omega)
  rw [hzone] at hnone
  cases hnone

/-- The session that `sdp_parse` returns shows what was stored. -/
theorem sdpParse_placed
    (h : ∀ ctx xs, LineStart (stringAt s 0) ctx xs → OpensLine xs → ¬ Misplaces ctx xs)
    (hparse : sdpParse fuel s = .ok sdp) : ∃ x, sdp.Placed TimingPlaced x := by
  obtain ⟨x, hx⟩ := sdpParse_comesTo hparse
  exact ⟨x, sound_of_inOrder (fun st hst => inOrder_of_lines h hst) hx⟩

end GbStream.Sdp
