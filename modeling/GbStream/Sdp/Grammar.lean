import GbStream.Sdp.Loops

/-!
# Reading the text alone

What the parser does with a line is decided by the text that is left and by little more:
whether there was a `u=` line, and how many `r=` and `z=` entries the last `t=` line has.
`readLine` says it without the memory the parser writes to, and `parseLine` refines it.
-/

namespace GbStream.Sdp

open Support Support.CString

variable {t : Text} {sdp : Session} {xs : List UInt8}

/-! ## Lines -/

structure Context where
  uri : Bool := false
  /-- The `r=` and `z=` entries of the last timing. -/
  timing : Option (Nat × Nat) := none
  deriving DecidableEq, Repr

variable {ctx : Context}

def lineHead (xs : List UInt8) : Except Stop (UInt8 × List UInt8) :=
  match skipBlanks xs with
  | [] => .error .outOfBounds
  | c :: ys =>
      match skipBlanks ys with
      | [] => .error .failed
      | d :: zs => if d = byte '=' then .ok (c, skipBlanks zs) else .error .failed

def leave (ctx : Context) : Option (List UInt8) → Except Stop (Context × List UInt8)
  | none => .error .failed
  | some rest => .ok (ctx, rest)

def readBody (ctx : Context) (xs : List UInt8) :
    LineKind → Except Stop (Context × List UInt8)
  | .v => leave ctx (lineEnd ((skipBlanks xs).dropWhile isDigit))
  | .o => leave ctx (if ∀ w ∈ wordsAt 6 xs, w ≠ [] then lineEnd (afterWords 6 xs) else none)
  | .s | .i | .e | .p | .y => leave ctx (lineEnd (behind eol xs))
  | .u =>
      if ctx.uri then .error .assertFailed
      else leave { ctx with uri := true } (lineEnd (behind eol xs))
  | .c =>
      leave ctx
        (if ∀ w ∈ connectionParts xs, w ≠ [] then lineEnd (afterRest (afterWords 2 xs)) else none)
  | .b | .k | .a => leave ctx (lineEnd (afterRest (afterColon xs)))
  | .t => leave { ctx with timing := some (0, 0) } (lineEnd (afterRest (afterWord xs)))
  | .r =>
      match ctx.timing with
      | none => .error .assertFailed
      | some (repeats, count) =>
          match repeatRest xs with
          | none => .error .outOfFuel
          | some ys => leave { ctx with timing := some (repeats + 1, count) } (lineEnd ys)
  | .z =>
      match ctx.timing with
      | none => .error .assertFailed
      | some (repeats, count) =>
          if SlotsOk repeats count (zones xs).1 then
            leave { ctx with timing := some (repeats, count + (zones xs).1) }
              (lineEnd (zones xs).2)
          else .error .badSlot
  | .m => leave ctx (lineEnd (mediaRest xs))

def readLine (ctx : Context) (xs : List UInt8) : Except Stop (Context × List UInt8) := do
  let (c, body) ← lineHead xs
  match lineKinds.lookup c with
  | none => .error .assertFailed
  | some kind => readBody ctx body kind

/-! ## The session and the context -/

structure Tracks (ctx : Context) (sdp : Session) : Prop where
  uri : sdp.u.isSome = ctx.uri
  timing : match ctx.timing with
    | none => sdp.t.count = 0
    | some (repeats, count) => sdp.t.count ≠ 0 ∧
        ∃ timing, sdp.lastTiming = .ok timing ∧ timing.r.count = repeats ∧ timing.z.count = count
  media : sdp.MediaOk

theorem Tracks.congr {sdp' : Session} (h : Tracks ctx sdp) (hu : sdp'.u = sdp.u)
    (ht : sdp'.t = sdp.t) (hm : sdp'.m = sdp.m) : Tracks ctx sdp' where
  uri := by rw [hu, h.uri]
  timing := by
    have htiming := h.timing
    unfold Session.lastTiming at *
    rw [ht]
    exact htiming
  media := by
    have hmedia := h.media
    unfold Session.MediaOk Session.lastMedia at *
    rw [hm]
    exact hmedia

theorem Tracks.record {v : Text} {onMedia : Media → Media} {onSession : Session → Session}
    {sdp' : Session} (h : Tracks ctx sdp)
    (hrecord : { sdp with text := v }.record onMedia onSession = .ok sdp')
    (hkeeps : ∀ s : Session, (onSession s).text = s.text ∧ (onSession s).u = s.u ∧
      (onSession s).t = s.t ∧ (onSession s).m = s.m) :
    sdp'.text = v ∧ Tracks ctx sdp' := by
  unfold Session.record at hrecord
  by_cases hcount : sdp.m.count > 0
  · obtain ⟨m, hlast⟩ := h.media hcount
    have hlast' : { sdp with text := v }.lastMedia = .ok m := hlast
    rw [if_pos hcount, hlast'] at hrecord
    obtain rfl := Except.ok.inj hrecord
    have hmedia : ({ sdp with text := v }.setLastMedia (onMedia m)).lastMedia =
        .ok (onMedia m) := by
      simp only [Session.lastMedia, Session.setLastMedia, Growable.count_set]
      rw [Growable.get?_set_self (by omega)]
    exact ⟨rfl, h.uri, h.timing, fun _ => ⟨onMedia m, hmedia⟩⟩
  · rw [if_neg hcount] at hrecord
    obtain rfl := Except.ok.inj hrecord
    obtain ⟨htext, hu, ht, hm⟩ := hkeeps { sdp with text := v }
    exact ⟨htext, h.congr hu ht hm⟩

theorem Tracks.pushTiming (h : Tracks ctx sdp) (v : Text) (timing : Timing) :
    Tracks { ctx with timing := some (timing.r.count, timing.z.count) }
      { sdp with text := v, t := sdp.t.push timing } where
  uri := h.uri
  timing := by
    refine ⟨?_, timing, ?_, rfl, rfl⟩
    · rw [Growable.count_push]
      exact Nat.succ_ne_zero _
    · simp only [Session.lastTiming, Growable.count_push, Nat.add_sub_cancel,
        Growable.get?_push_count]
  media := h.media

theorem Tracks.setTiming (h : Tracks ctx sdp) (hcount : sdp.t.count ≠ 0) (v : Text)
    (timing : Timing) :
    Tracks { ctx with timing := some (timing.r.count, timing.z.count) }
      { sdp with text := v, t := sdp.t.set (sdp.t.count - 1) timing } where
  uri := h.uri
  timing := by
    refine ⟨?_, timing, ?_, rfl, rfl⟩
    · rwa [Growable.count_set]
    · simp only [Session.lastTiming, Growable.count_set]
      rw [Growable.get?_set_self (by omega)]
  media := h.media

theorem Tracks.pushMedia {v : Text} {m : Media} (h : Tracks ctx sdp) :
    Tracks ctx { sdp with text := v, m := sdp.m.push m } where
  uri := h.uri
  timing := h.timing
  media := fun _ => ⟨m, by
    simp only [Session.lastMedia, Growable.count_push, Nat.add_sub_cancel,
      Growable.get?_push_count]⟩

/-! ## The refinement -/

inductive Refines (t : Text) (r : Except Stop Session) :
    Except Stop (Context × List UInt8) → Prop
  | stops {e : Stop} (h : r = .error e) : Refines t r (.error e)
  | leaves {ctx : Context} {rest : List UInt8} {sdp : Session} (h : r = .ok sdp)
      (hat : At sdp.text rest) (hframe : Frame t sdp.text) (htracks : Tracks ctx sdp) :
      Refines t r (.ok (ctx, rest))

theorem Outcome.refines {r : Except Stop Session} {rest? : Option (List UInt8)}
    {P : List UInt8 → Session → Prop} (h : Outcome r rest? P)
    (hP : ∀ rest sdp, P rest sdp →
      At sdp.text rest ∧ Frame t sdp.text ∧ Tracks ctx sdp) :
    Refines t r (leave ctx rest?) := by
  cases h with
  | fails hr => exact .stops hr
  | leaves hr hPa =>
      obtain ⟨hat, hframe, htracks⟩ := hP _ _ hPa
      exact .leaves hr hat hframe htracks

theorem parseUri_twice (hu : sdp.u.isSome) : parseUri sdp = .error .assertFailed := if_pos hu

theorem parseUri_refines (h : At sdp.text xs) (htracks : Tracks ctx sdp) :
    Refines sdp.text (parseUri sdp) (readBody ctx xs .u) := by
  rw [readBody]
  by_cases huri : ctx.uri
  · rw [if_pos huri]
    exact .stops (parseUri_twice (htracks.uri.trans huri))
  · rw [if_neg huri]
    have hnone : sdp.u = none := by
      rw [← Option.not_isSome_iff_eq_none, htracks.uri]
      exact huri
    apply (parseUri_outcome h hnone).refines
    rintro rest _ ⟨v, a, hclosed, rfl⟩
    exact ⟨hclosed.rest, hclosed.frame, rfl, htracks.timing, htracks.media⟩

theorem parseRepeat_refines (h : At sdp.text xs) (htracks : Tracks ctx sdp) {fuel : Nat}
    (hfuel : 2 ≤ fuel) : Refines sdp.text (parseRepeat fuel sdp) (readBody ctx xs .r) := by
  have htiming := htracks.timing
  rw [readBody]
  cases hctx : ctx.timing with
  | none =>
      rw [hctx] at htiming
      exact .stops (if_pos htiming)
  | some counts =>
      obtain ⟨repeats, count⟩ := counts
      rw [hctx] at htiming
      obtain ⟨hcount, timing, hlast, rfl, rfl⟩ := htiming
      dsimp only
      cases hrest : repeatRest xs with
      | none => exact .stops (parseRepeat_hangs h hcount hlast hrest fuel)
      | some ys =>
          apply (parseRepeat_outcome h hcount hlast hrest hfuel).refines
          rintro rest _ ⟨v, r, hat, hframe, rfl⟩
          refine ⟨hat, hframe, ?_⟩
          rw [← Growable.count_push timing.r r]
          exact htracks.setTiming hcount v { timing with r := timing.r.push r }

theorem parseTimezone_refines (h : At sdp.text xs) (htracks : Tracks ctx sdp) {fuel : Nat}
    (hfuel : xs.length + 2 ≤ fuel) :
    Refines sdp.text (parseTimezone fuel sdp) (readBody ctx xs .z) := by
  have htiming := htracks.timing
  rw [readBody]
  cases hctx : ctx.timing with
  | none =>
      rw [hctx] at htiming
      exact .stops (if_pos htiming)
  | some counts =>
      obtain ⟨repeats, count⟩ := counts
      rw [hctx] at htiming
      obtain ⟨hcount, timing, hlast, rfl, rfl⟩ := htiming
      dsimp only
      by_cases hslots : SlotsOk timing.r.count timing.z.count (zones xs).1
      · rw [if_pos hslots]
        apply (parseTimezone_outcome h hcount hlast hslots (by omega)).refines
        rintro rest _ ⟨v, z, hat, hframe, hz, rfl⟩
        refine ⟨hat, hframe, ?_⟩
        rw [← hz]
        exact htracks.setTiming hcount v { timing with z }
      · rw [if_neg hslots]
        exact .stops (parseTimezone_badSlot h hcount hlast hslots (by omega))

theorem parseBody_refines (h : At sdp.text xs) (htracks : Tracks ctx sdp) {fuel : Nat}
    (hfuel : xs.length + 2 ≤ fuel) (kind : LineKind) :
    Refines sdp.text (parseBody fuel sdp kind) (readBody ctx xs kind) := by
  have htwo : 2 ≤ fuel := by omega
  cases kind with
  | v =>
      apply (parseVersion_outcome h).refines
      rintro rest _ ⟨v, hclosed, rfl⟩
      exact ⟨hclosed.rest, hclosed.frame, htracks.congr rfl rfl rfl⟩
  | o =>
      apply (parseOrigin_outcome h).refines
      rintro rest _ ⟨v, a, b, c, d, e, f, hclosed, rfl⟩
      exact ⟨hclosed.rest, hclosed.frame, htracks.congr rfl rfl rfl⟩
  | s =>
      apply (parseSession_outcome h).refines
      rintro rest _ ⟨v, a, hclosed, rfl⟩
      exact ⟨hclosed.rest, hclosed.frame, htracks.congr rfl rfl rfl⟩
  | i =>
      apply (parseInformation_outcome h htracks.media).refines
      rintro rest _ ⟨v, a, hclosed, hrecord⟩
      obtain ⟨rfl, htracks'⟩ := htracks.record hrecord fun _ => ⟨rfl, rfl, rfl, rfl⟩
      exact ⟨hclosed.rest, hclosed.frame, htracks'⟩
  | u => exact parseUri_refines h htracks
  | e =>
      apply (parseEmail_outcome h).refines
      rintro rest _ ⟨v, a, hclosed, rfl⟩
      exact ⟨hclosed.rest, hclosed.frame, htracks.congr rfl rfl rfl⟩
  | p =>
      apply (parsePhone_outcome h).refines
      rintro rest _ ⟨v, a, hclosed, rfl⟩
      exact ⟨hclosed.rest, hclosed.frame, htracks.congr rfl rfl rfl⟩
  | c =>
      apply (parseConnection_outcome h htracks.media).refines
      rintro rest _ ⟨v, a, b, d, hclosed, hrecord⟩
      obtain ⟨rfl, htracks'⟩ := htracks.record hrecord fun _ => ⟨rfl, rfl, rfl, rfl⟩
      exact ⟨hclosed.rest, hclosed.frame, htracks'⟩
  | b =>
      apply (parseBandwidth_outcome h htracks.media).refines
      rintro rest _ ⟨v, a, b, hclosed, hrecord⟩
      obtain ⟨rfl, htracks'⟩ := htracks.record hrecord fun _ => ⟨rfl, rfl, rfl, rfl⟩
      exact ⟨hclosed.rest, hclosed.frame, htracks'⟩
  | t =>
      apply (parseTiming_outcome h).refines
      rintro rest _ ⟨v, a, b, hclosed, rfl⟩
      exact ⟨hclosed.rest, hclosed.frame,
        htracks.pushTiming v ⟨some a.ptr, some b.ptr, .empty, .empty⟩⟩
  | r => exact parseRepeat_refines h htracks htwo
  | z => exact parseTimezone_refines h htracks hfuel
  | k =>
      apply (parseEncryption_outcome h htracks.media).refines
      rintro rest _ ⟨v, a, b, hclosed, hrecord⟩
      obtain ⟨rfl, htracks'⟩ := htracks.record hrecord fun _ => ⟨rfl, rfl, rfl, rfl⟩
      exact ⟨hclosed.rest, hclosed.frame, htracks'⟩
  | a =>
      apply (parseAttribute_outcome h htracks.media).refines
      rintro rest _ ⟨v, a, b, hclosed, hrecord⟩
      obtain ⟨rfl, htracks'⟩ := htracks.record hrecord fun _ => ⟨rfl, rfl, rfl, rfl⟩
      exact ⟨hclosed.rest, hclosed.frame, htracks'⟩
  | m =>
      apply (parseMedia_outcome h htwo).refines
      rintro rest _ ⟨v, a, b, c, m, hat, hframe, -, rfl⟩
      exact ⟨hat, hframe, htracks.pushMedia⟩
  | y =>
      apply (parseY_outcome h).refines
      rintro rest _ ⟨v, a, hclosed, rfl⟩
      exact ⟨hclosed.rest, hclosed.frame, htracks.congr rfl rfl rfl⟩

theorem At.length (h : At t xs) (hne : xs ≠ []) : t.offset + xs.length + 1 = t.raw.length := by
  obtain ⟨junk, hdrop, hjunk⟩ := h.drop
  have hlength := congrArg List.length hdrop
  have hlt := h.offset_lt
  rw [hjunk hne, List.length_drop, List.length_append, List.length_singleton] at hlength
  omega

theorem Refines.mono {u : Text} {r : Except Stop Session}
    {read : Except Stop (Context × List UInt8)} (h : Refines t r read) (hraw : t.raw = u.raw)
    (hle : u.offset ≤ t.offset) : Refines u r read := by
  cases h with
  | stops hr => exact .stops hr
  | leaves hr hat hframe htracks =>
      refine .leaves hr hat ?_ htracks
      have hframe' : Frame u t := ⟨congrArg List.length hraw, hle, fun i _ => by rw [hraw]⟩
      exact hframe'.trans hframe

/-- The front of a line: its letter, and the scanner behind the equals sign. -/
def Text.lineFront (t : Text) : Except Stop (UInt8 × Text) := do
  let t ← t.skipSpace
  let c ← t.char
  let t ← (t.advance 1).skipSpace
  let d ← t.char
  if d ≠ byte '=' then .error .failed
  else do
    let t ← (t.advance 1).skipSpace
    .ok (c, t)

theorem parseLine_eq (fuel : Nat) (sdp : Session) :
    parseLine fuel sdp =
      sdp.text.lineFront >>= fun (c, t) =>
        match lineKinds.lookup c with
        | none => .error .assertFailed
        | some kind => parseBody fuel { sdp with text := t } kind := by
  simp only [parseLine, Text.lineFront, bind_assoc]
  apply bind_congr
  intro t
  apply bind_congr
  intro c
  apply bind_congr
  intro u
  apply bind_congr
  intro d
  split
  · rfl
  · simp only [bind_assoc]
    rfl

theorem At.lineFront (h : At t xs) (hne : xs ≠ []) :
    match lineHead xs with
    | .error e => t.lineFront = .error e
    | .ok (c, body) => ∃ u, t.lineFront = .ok (c, u) ∧ At u body ∧ u.raw = t.raw ∧
        t.offset + 2 ≤ u.offset ∧ body.length ≤ xs.length := by
  obtain ⟨n, hskip, hat, hn⟩ := h.skipSpace
  unfold lineHead
  cases hxs : skipBlanks xs with
  | nil =>
      -- The blanks reach to the terminator, and the scanner goes on behind it.
      rw [hxs] at hat hn
      have hlength := h.length hne
      have hdrop : ((t.advance n).advance 1).raw.drop ((t.advance n).advance 1).offset = [] := by
        apply List.drop_eq_nil_of_le
        simp only [Text.raw_advance, Text.offset_advance, List.length_nil] at hn ⊢
        omega
      have hskip' : ((t.advance n).advance 1).skipSpace = .error .outOfBounds := by
        rw [Text.skipSpace, hdrop]
        rfl
      simp only [Text.lineFront, hskip, hat.char, hskip', ok_bind, error_bind]
  | cons c ys =>
      rw [hxs] at hat hn
      have hat' : At ((t.advance n).advance 1) ys := At.advance (w := [c]) hat
      obtain ⟨n', hskip', hat'', hn'⟩ := hat'.skipSpace
      simp only [Text.lineFront, hskip, hat.char, hskip', hat''.char, ok_bind]
      cases hys : skipBlanks ys with
      | nil => rfl
      | cons d zs =>
          rw [hys] at hat'' hn'
          have hbody : At ((((t.advance n).advance 1).advance n').advance 1) zs :=
            At.advance (w := [d]) hat''
          obtain ⟨n'', hskip'', hbody', hn''⟩ := hbody.skipSpace
          simp only [List.length_cons] at hn hn'
          by_cases hd : d = byte '='
          · simp only [hd, hskip'', ok_bind, List.headD_cons, ne_eq, not_true_eq_false, if_true,
              if_false]
            refine ⟨_, rfl, hbody', rfl, ?_, by omega⟩
            simp only [Text.offset_advance]
            omega
          · simp only [hd, List.headD_cons, ne_eq, not_false_eq_true, if_true, if_false]

theorem parseLine_head (h : At sdp.text xs) {c : UInt8} {body : List UInt8}
    (head : lineHead xs = .ok (c, body)) :
    ∃ t, At t body ∧ t.raw = sdp.text.raw ∧ sdp.text.offset + 2 ≤ t.offset ∧
      body.length ≤ xs.length ∧
      ∀ fuel, parseLine fuel sdp =
        match lineKinds.lookup c with
        | none => .error .assertFailed
        | some kind => parseBody fuel { sdp with text := t } kind := by
  have hne : xs ≠ [] := by
    rintro rfl
    cases head
  have hfront := h.lineFront hne
  rw [head] at hfront
  obtain ⟨t, hfront, hat, hraw, hle, hlength⟩ := hfront
  exact ⟨t, hat, hraw, hle, hlength, fun fuel => by rw [parseLine_eq, hfront, ok_bind]⟩

theorem parseLine_stops (h : At sdp.text xs) (hne : xs ≠ []) {e : Stop}
    (head : lineHead xs = .error e) (fuel : Nat) : parseLine fuel sdp = .error e := by
  have hfront := h.lineFront hne
  rw [head] at hfront
  rw [parseLine_eq, show sdp.text.lineFront = .error e from hfront, error_bind]

/-- A line is read as its text says; the letter and the equals sign at least are left
behind. -/
theorem parseLine_refines (h : At sdp.text xs) (hne : xs ≠ []) (htracks : Tracks ctx sdp)
    {fuel : Nat} (hfuel : xs.length + 2 ≤ fuel) :
    Refines (sdp.text.advance 2) (parseLine fuel sdp) (readLine ctx xs) := by
  rw [readLine]
  cases head : lineHead xs with
  | error e => exact .stops (parseLine_stops h hne head fuel)
  | ok r =>
      obtain ⟨c, body⟩ := r
      obtain ⟨t, hat, hraw, hle, hlength, hline⟩ := parseLine_head h head
      rw [ok_bind, hline]
      dsimp only
      cases lineKinds.lookup c with
      | none => exact .stops rfl
      | some kind =>
          have hat' : At { sdp with text := t }.text body := hat
          have hrefines := parseBody_refines hat' (htracks.congr rfl rfl rfl)
            (show body.length + 2 ≤ fuel by omega) kind
          exact hrefines.mono hraw hle

end GbStream.Sdp
