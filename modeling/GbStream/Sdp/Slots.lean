import GbStream.Sdp.Points

/-!
# Entries in their slots

Which points of the parser have every list as it should be.  All copies of the growing code
store at the number of entries but that of `z=`, which stores at the number of `r=` lines: the
lists are sound for as long as the two numbers agree at every pair of a `z=` line.
-/

namespace GbStream.Sdp

open Support

/-! ## Sound lists -/

def RepeatPlaced (r : Repeat) (y : RepeatEntry) : Prop :=
  r.interval = y.interval ∧ r.duration = y.duration ∧ r.offsets.Placed Eq y.offsets

structure TimingPlaced (t : Timing) (y : TimingEntry) : Prop where
  start : t.start = y.start
  stop : t.stop = y.stop
  r : t.r.Placed RepeatPlaced y.r
  z : t.z.Placed Eq y.z

structure MediaPlaced (m : Media) (y : MediaEntry) : Prop where
  media : m.media = y.media
  port : m.port = y.port
  proto : m.proto = y.proto
  fmt : m.fmt.Placed Eq y.fmt
  c : m.c.Placed Eq y.c
  a : m.a.Placed Eq y.a
  b : m.b.Placed Eq y.b

/-- Every list of the session object holds its entries, each in its slot; `T` says what the
timings hold. -/
structure Session.Placed (T : Timing → TimingEntry → Prop) (sdp : Session) (x : Entries) :
    Prop where
  e : sdp.e.Placed Eq x.e
  p : sdp.p.Placed Eq x.p
  b : sdp.b.Placed Eq x.b
  t : sdp.t.Placed T x.t
  a : sdp.a.Placed Eq x.a
  m : sdp.m.Placed MediaPlaced x.m

/-- The session object with the timing that the loop of `z=` changes. -/
def Session.withTiming (sdp : Session) (timing : Timing) : Session :=
  { sdp with t := sdp.t.set (sdp.t.count - 1) timing }

/-- All growable lists are sound at a point, that of the line being read included. -/
def Sound : Point × Entries → Prop
  | (.line sdp, x) => sdp.Placed TimingPlaced x
  | (.repeats sdp _ _ _ _ _ offsets, x) =>
      sdp.Placed TimingPlaced x ∧ offsets.Placed Eq x.line
  | (.zones sdp _ timing, x) => (sdp.withTiming timing).Placed TimingPlaced x
  | (.formats sdp _ _ _ _ _ formats, x) =>
      sdp.Placed TimingPlaced x ∧ formats.Placed Eq x.line
  | (.outside, _) => False

/-- Where a pair of `z=` is stored next, there are as many zones as repeats. -/
def InOrder : Point → Prop
  | .zones _ t timing =>
      ∀ zone t', zoneAt t = .ok (some zone, t') → timing.z.count = timing.r.count
  | _ => True

/-! ## What a store keeps -/

variable {s : List UInt8} {sdp sdp' : Session} {x : Entries} {T : Timing → TimingEntry → Prop}

theorem Session.Placed.withText (h : sdp.Placed T x) (text : Text) :
    { sdp with text }.Placed T x :=
  ⟨h.e, h.p, h.b, h.t, h.a, h.m⟩

theorem Session.Placed.withLine (h : sdp.Placed T x) (line : List (Option Nat)) :
    sdp.Placed T { x with line } :=
  ⟨h.e, h.p, h.b, h.t, h.a, h.m⟩

theorem onMedia_placed {m : Media} {y : MediaEntry} (h : MediaPlaced m y) (r : Recorded) :
    MediaPlaced (r.onMedia m) (Entries.recordOnMedia y r) := by
  cases r with
  | information i => exact { h with }
  | connection network addrtype address => exact { h with c := h.c.push rfl }
  | bandwidth bwtype value => exact { h with b := h.b.push rfl }
  | encryption method key => exact { h with }
  | «attribute» name value => exact { h with a := h.a.push rfl }

theorem onSession_placed (h : sdp.Placed T x) (r : Recorded) :
    (r.onSession sdp).Placed T (x.recordOnSession r) := by
  cases r with
  | information i => exact { h with }
  | connection network addrtype address => exact { h with }
  | bandwidth bwtype value => exact { h with b := h.b.push rfl }
  | encryption method key => exact { h with }
  | «attribute» name value => exact { h with a := h.a.push rfl }

theorem record_placed (h : sdp.Placed T x) (r : Recorded)
    (hrecord : sdp.record r.onMedia r.onSession = .ok sdp') :
    sdp'.Placed T (x.note (.recorded r)) := by
  have hlength := h.m.count
  rw [Entries.note]
  rcases record_cases hrecord with ⟨hpos, m, hlast, rfl⟩ | ⟨hzero, rfl⟩
  · rw [if_pos (by omega)]
    have hm : (sdp.m.set (sdp.m.count - 1) (r.onMedia m)).Placed MediaPlaced
        (x.m.modifyLast fun y => Entries.recordOnMedia y r) :=
      h.m.modifyLast (Nat.ne_of_gt hpos) (get?_of_lastMedia hlast)
        fun y hy => onMedia_placed hy r
    exact ⟨h.e, h.p, h.b, h.t, h.a, hm⟩
  · rw [if_neg (by omega)]
    exact onSession_placed h r

/-- A timing without repeats and zones is one that `T` allows. -/
def StartsTimings (T : Timing → TimingEntry → Prop) : Prop :=
  ∀ start stop, T ⟨start, stop, .empty, .empty⟩ ⟨start, stop, [], []⟩

theorem note_placed (hT : StartsTimings T) (h : sdp.Placed T x) (effect : Effect)
    (happly : effect.apply sdp = .ok sdp') : sdp'.Placed T (x.note effect) := by
  cases effect with
  | recorded r => exact record_placed h r happly
  | email e =>
      cases happly
      exact { h with e := h.e.push rfl }
  | phone p =>
      cases happly
      exact { h with p := h.p.push rfl }
  | timing start stop =>
      cases happly
      exact { h with t := h.t.push (hT _ _) }
  | version | origin | name | y | uri =>
      cases happly
      exact { h with }

theorem appendOffset_placed {t t' : Text} {offset : Option Token}
    {offsets offsets' : Growable (Option Nat) 1} (h : offsets.Placed Eq x.line)
    (happend : appendOffset t offset offsets = .ok (t', offsets')) :
    offsets'.Placed Eq (x.append (Entries.ofToken offset)).line := by
  cases offset with
  | none =>
      cases happend
      rw [Entries.append, Entries.ofToken, List.append_nil]
      exact h
  | some tok =>
      rw [appendOffset] at happend
      rw [Entries.append, Entries.ofToken]
      split at happend
      · rename_i hn
        obtain ⟨t, -, happend⟩ := bind_eq_ok.mp happend
        cases happend
        rw [if_pos hn]
        exact h.push rfl
      · rename_i hn
        cases happend
        rw [if_neg hn, List.append_nil]
        exact h

/-! ## The invariant -/

structure TimingKept (t : Timing) (y : TimingEntry) : Prop extends TimingPlaced t y where
  free : t.z.Free

/-- What holds at every point up to the first pair that is out of order. -/
def Kept : Point × Entries → Prop
  | (.line sdp, x) => sdp.Placed TimingKept x
  | (.repeats sdp timing _ _ _ _ offsets, x) =>
      sdp.Placed TimingKept x ∧ offsets.Placed Eq x.line ∧ sdp.t.count ≠ 0 ∧
        sdp.lastTiming = .ok timing
  | (.zones sdp _ timing, x) =>
      (sdp.withTiming timing).Placed TimingKept x ∧ sdp.t.count ≠ 0
  | (.formats sdp _ _ _ _ _ formats, x) =>
      sdp.Placed TimingKept x ∧ formats.Placed Eq x.line
  | (.outside, _) => False

theorem Session.Placed.sound (h : sdp.Placed TimingKept x) : sdp.Placed TimingPlaced x :=
  { h with t := h.t.imp fun _ _ hkept => hkept.toTimingPlaced }

theorem Kept.sound {st : Point × Entries} (h : Kept st) : Sound st := by
  obtain ⟨point, x⟩ := st
  cases point with
  | line sdp => exact Session.Placed.sound h
  | repeats sdp timing interval duration t offset offsets => exact ⟨h.1.sound, h.2.1⟩
  | zones sdp t timing => exact h.1.sound
  | formats sdp media port proto fmt t formats => exact ⟨h.1.sound, h.2⟩
  | outside => exact h

theorem startsTimings_kept : StartsTimings TimingKept :=
  fun _ _ => ⟨⟨rfl, rfl, .empty, .empty⟩, Growable.free_empty⟩

theorem nextLine_text {kind : LineKind} {sdp₁ : Session}
    (h : nextLine sdp = .ok (some (kind, sdp₁))) : ∃ text, sdp₁ = { sdp with text } := by
  obtain ⟨c, -, h⟩ := bind_eq_ok.mp h
  split at h
  · cases h
  · obtain ⟨⟨c, t⟩, -, h⟩ := bind_eq_ok.mp h
    dsimp only at h
    split at h
    · cases h
    · cases h
      exact ⟨t, rfl⟩

theorem nextLine_placed {kind : LineKind} {sdp₁ : Session} (h : sdp.Placed T x)
    (head : nextLine sdp = .ok (some (kind, sdp₁))) : sdp₁.Placed T x := by
  obtain ⟨text, rfl⟩ := nextLine_text head
  exact h.withText text

theorem openRepeat_timing {timing : Timing} {interval duration : Token} {t : Text}
    (h : openRepeat sdp = .ok (timing, interval, duration, t)) :
    sdp.t.count ≠ 0 ∧ sdp.lastTiming = .ok timing := by
  unfold openRepeat at h
  split at h
  · cases h
  · rename_i hcount
    obtain ⟨last, hlast, h⟩ := bind_eq_ok.mp h
    obtain ⟨_, -, h⟩ := bind_eq_ok.mp h
    obtain ⟨_, -, h⟩ := bind_eq_ok.mp h
    cases h
    exact ⟨hcount, hlast⟩

theorem closeRepeat_placed {timing : Timing} {interval duration : Token} {t : Text}
    {offset : Option Token} {offsets : Growable (Option Nat) 1} (h : sdp.Placed TimingKept x)
    (hoffsets : offsets.Placed Eq x.line) (hcount : sdp.t.count ≠ 0)
    (hlast : sdp.lastTiming = .ok timing)
    (hclose : closeRepeat sdp timing interval duration t offset offsets = .ok sdp') :
    sdp'.Placed TimingKept
      ((x.append (Entries.ofToken offset)).addRepeat interval.ptr duration.ptr) := by
  obtain ⟨u, -, hclose⟩ := bind_eq_ok.mp hclose
  obtain ⟨v, -, hclose⟩ := bind_eq_ok.mp hclose
  obtain ⟨⟨w, offsets'⟩, happend, hclose⟩ := bind_eq_ok.mp hclose
  cases hclose
  have hoffsets' := appendOffset_placed hoffsets happend
  refine ⟨h.e, h.p, h.b, ?_, h.a, h.m⟩
  exact h.t.modifyLast hcount (get?_of_lastTiming hlast) fun y hy =>
    { hy with r := hy.r.push ⟨rfl, rfl, hoffsets'⟩ }

theorem openTimezone_placed {timing : Timing} (h : sdp.Placed T x)
    (hopen : openTimezone sdp = .ok timing) :
    (sdp.withTiming timing).Placed T x ∧ sdp.t.count ≠ 0 := by
  unfold openTimezone at hopen
  split at hopen
  · cases hopen
  · rename_i hcount
    refine ⟨?_, hcount⟩
    rw [Session.withTiming, Growable.set_get? (get?_of_lastTiming hopen)]
    exact h

theorem zones_placed {timing : Timing} {zone : TimeZone} {z : Growable TimeZone 1}
    (h : (sdp.withTiming timing).Placed TimingKept x) (hcount : sdp.t.count ≠ 0)
    (horder : timing.z.count = timing.r.count)
    (hstore : timing.z.storeAt timing.r.count zone = some z) :
    (sdp.withTiming { timing with z }).Placed TimingKept (x.addZone zone) := by
  rw [← horder, Growable.storeAt_count] at hstore
  obtain rfl := Option.some.inj hstore
  have ht := h.t
  simp only [Session.withTiming] at ht
  have hcount' : (sdp.t.set (sdp.t.count - 1) timing).count ≠ 0 := by rwa [Growable.count_set]
  have hlast : (sdp.t.set (sdp.t.count - 1) timing).get?
      ((sdp.t.set (sdp.t.count - 1) timing).count - 1) = some timing := by
    rw [Growable.count_set]
    exact Growable.get?_set_self (by omega) timing
  have hkept : ∀ y, TimingKept timing y →
      TimingKept { timing with z := timing.z.push zone } { y with z := y.z ++ [zone] } :=
    fun y hy => ⟨{ hy with z := hy.z.push rfl }, hy.free.push zone⟩
  have hmodified := ht.modifyLast hcount' hlast hkept
  rw [Growable.count_set, Growable.set_set] at hmodified
  exact ⟨h.e, h.p, h.b, hmodified, h.a, h.m⟩

theorem closeTimezone_placed {timing : Timing} {t : Text}
    (h : (sdp.withTiming timing).Placed T x) (hclose : closeTimezone sdp timing t = .ok sdp') :
    sdp'.Placed T x := by
  obtain ⟨u, -, hclose⟩ := bind_eq_ok.mp hclose
  cases hclose
  exact h.withText u

theorem formatRound_placed {fmt fmt' : Token} {t t' : Text}
    {formats formats' : Growable (Option Nat) 5} (h : formats.Placed Eq x.line)
    (hround : formatRound fmt t formats = .ok (some (fmt', t', formats'))) :
    formats'.Placed Eq (x.append [some fmt.ptr]).line := by
  unfold formatRound at hround
  split at hround
  · cases hround
  · split at hround
    · obtain ⟨u, -, hround⟩ := bind_eq_ok.mp hround
      obtain ⟨w, -, hround⟩ := bind_eq_ok.mp hround
      cases hround
      exact h.push rfl
    · cases hround

theorem closeMedia_placed {media port proto fmt : Token} {t : Text}
    {formats : Growable (Option Nat) 5} (h : sdp.Placed T x) (hformats : formats.Placed Eq x.line)
    (hclose : closeMedia sdp media port proto fmt t formats = .ok sdp') :
    sdp'.Placed T
      ((x.append (Entries.ofToken fmt)).addMedia media.ptr port.ptr proto.ptr) := by
  obtain ⟨u, -, hclose⟩ := bind_eq_ok.mp hclose
  obtain ⟨v, -, hclose⟩ := bind_eq_ok.mp hclose
  dsimp only at hclose
  rw [Entries.append, Entries.ofToken]
  split at hclose
  · rename_i hn
    obtain ⟨w, -, hclose⟩ := bind_eq_ok.mp hclose
    cases hclose
    rw [if_pos hn]
    exact { h with m := h.m.push ⟨rfl, rfl, rfl, hformats.push rfl, .empty, .empty, .empty⟩ }
  · rename_i hn
    cases hclose
    rw [if_neg hn, List.append_nil]
    exact { h with m := h.m.push ⟨rfl, rfl, rfl, hformats, .empty, .empty, .empty⟩ }

theorem Kept.step {st st' : Point × Entries} (h : Kept st) (horder : InOrder st.1)
    (hstep : Step st st') : Kept st' := by
  cases hstep with
  | plain head body happly =>
      exact note_placed startsTimings_kept ((nextLine_placed h head).withText _) _ happly
  | openRepeat head hopen =>
      exact ⟨(nextLine_placed h head).withLine [], .empty, openRepeat_timing hopen⟩
  | repeats round =>
      obtain ⟨hplaced, hoffsets, htiming⟩ := h
      obtain ⟨c, -, round⟩ := bind_eq_ok.mp round
      split at round
      · obtain ⟨r, happend, round⟩ := bind_eq_ok.mp round
        obtain ⟨w, -, round⟩ := bind_eq_ok.mp round
        cases round
        exact ⟨hplaced.withLine _, appendOffset_placed hoffsets happend, htiming⟩
      · cases round
  | closeRepeat round hclose =>
      obtain ⟨hplaced, hoffsets, hcount, hlast⟩ := h
      exact closeRepeat_placed hplaced hoffsets hcount hlast hclose
  | openTimezone head hopen => exact openTimezone_placed (nextLine_placed h head) hopen
  | zones round store =>
      obtain ⟨hplaced, hcount⟩ := h
      exact ⟨zones_placed hplaced hcount (horder _ _ round) store, hcount⟩
  | outside round store =>
      rw [← horder _ _ round, Growable.storeAt_count] at store
      cases store
  | closeTimezone round hclose => exact closeTimezone_placed h.1 hclose
  | openMedia head hopen => exact ⟨(nextLine_placed h head).withLine [], .empty⟩
  | formats round => exact ⟨h.1.withLine _, formatRound_placed h.2 round⟩
  | closeMedia round hclose => exact closeMedia_placed h.1 h.2 hclose

theorem reachable_kept {st : Point × Entries}
    (h : (parsing s).ReachableWith (fun st _ => InOrder st.1) st) : Kept st := by
  apply h.invariant
  · rintro st rfl
    exact ⟨.empty, .empty, .empty, .empty, .empty, .empty⟩
  · exact fun st _ st' hkept horder hstep => hkept.step horder hstep

/-! ## All runs -/

theorem zones_last {T : Timing → TimingEntry → Prop} {timing : Timing} (hcount : sdp.t.count ≠ 0)
    (h : (sdp.withTiming timing).Placed T x) :
    ∃ y, x.t[sdp.t.count - 1]? = some y ∧ T timing y := by
  have hlt : sdp.t.count - 1 < (sdp.t.set (sdp.t.count - 1) timing).count := by
    rw [Growable.count_set]
    omega
  obtain ⟨last, y, hy, hlast, hT⟩ := h.t.entry hlt
  obtain rfl : timing = last :=
    Option.some.inj ((Growable.get?_set_self (by omega) timing).symm.trans hlast)
  exact ⟨y, hy, hT⟩

/-- A pair that is out of order goes outside the array or leaves its own slot empty. -/
theorem Kept.misplaced {t t' : Text} {timing : Timing} {zone : TimeZone}
    (h : Kept (.zones sdp t timing, x)) (round : zoneAt t = .ok (some zone, t'))
    (hne : timing.z.count ≠ timing.r.count) :
    ∃ st', Step (.zones sdp t timing, x) st' ∧ ¬ Sound st' := by
  obtain ⟨hplaced, hcount⟩ := h
  cases store : timing.z.storeAt timing.r.count zone with
  | none => exact ⟨_, .outside round store, id⟩
  | some z =>
      refine ⟨_, .zones round store, fun hsound => ?_⟩
      obtain ⟨y, -, hkept⟩ := zones_last hcount hplaced
      obtain ⟨y', -, hy'⟩ := zones_last hcount hsound
      have hpos : 1 ≤ timing.z.count := by
        have hslot := Growable.storeAt_isSome.mp ⟨z, store⟩
        split at hslot <;> omega
      have hfree := hkept.free timing.z.count (Nat.le_refl _) hpos
      have hlt : timing.z.count < z.count := by
        rw [Growable.count_of_storeAt store]
        exact Nat.lt_succ_self _
      obtain ⟨zone', _, -, hzone', -⟩ := hy'.z.entry hlt
      rw [Growable.get?_storeAt_of_ne store hne, hfree] at hzone'
      cases hzone'

theorem inOrder_of_sound (h : ∀ st, (parsing s).Reachable st → Sound st) {st : Point × Entries}
    (hst : (parsing s).ReachableWith (fun st _ => InOrder st.1) st) : InOrder st.1 := by
  obtain ⟨point, x⟩ := st
  cases point with
  | zones sdp t timing =>
      intro zone t' round
      by_contra hne
      obtain ⟨st', hstep, hunsound⟩ := (reachable_kept hst).misplaced round hne
      exact hunsound (h st' (reaches hst.reachable hstep))
  | line | repeats | formats | outside => exact trivial

theorem sound_of_inOrder (h : ∀ st, (parsing s).Reachable st → InOrder st.1)
    {st : Point × Entries} (hst : (parsing s).Reachable st) : Sound st :=
  (reachable_kept (.restrict (fun st _ hst => h st hst) hst)).sound

/-- The lists are sound at every point exactly if every pair of `z=` that the parser comes to is
in order. -/
theorem sound_iff_inOrder (s : List UInt8) :
    (∀ st, (parsing s).Reachable st → Sound st) ↔
      ∀ st, (parsing s).Reachable st → InOrder st.1 := by
  constructor
  · intro h st hst
    apply inOrder_of_sound h
    induction hst with
    | init hinit => exact .init hinit
    | step _ _ hstep ih => exact .step ih (inOrder_of_sound h ih) hstep
  · exact fun h st hst => sound_of_inOrder h hst

end GbStream.Sdp
