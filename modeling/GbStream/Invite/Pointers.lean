import GbStream.Invite.Parase

/-!
# The pointers of an invitation

Which of the pointers that `parase_invite` uses without a test are null is decided by the lines
of the body alone.
-/

namespace GbStream.Invite

open Support Support.CString Sdp Call

/-! ## What the lines have -/

def HasOrigin (lines : List (UInt8 × List UInt8)) : Prop := ∃ line ∈ lines, line.1 = byte 'o'

/-- A `c=` line in front of the first `m=` line. -/
def HasConnection : List (UInt8 × List UInt8) → Prop
  | [] => False
  | line :: lines => line.1 = byte 'c' ∨ line.1 ≠ byte 'm' ∧ HasConnection lines

def mediaCount (lines : List (UInt8 × List UInt8)) : Nat := lines.countP (·.1 = byte 'm')

variable {lines : List (UInt8 × List UInt8)} {line : UInt8 × List UInt8} {kind : LineKind}
  {sdp sdp' : Session}

theorem hasOrigin_concat :
    HasOrigin (lines ++ [line]) ↔ HasOrigin lines ∨ line.1 = byte 'o' := by
  simp [HasOrigin, or_and_right, exists_or]

theorem mediaCount_concat :
    mediaCount (lines ++ [line]) = mediaCount lines + if line.1 = byte 'm' then 1 else 0 := by
  simp [mediaCount, List.countP_append, List.countP_singleton]

theorem mediaCount_cons :
    mediaCount (line :: lines) = mediaCount lines + if line.1 = byte 'm' then 1 else 0 := by
  simp [mediaCount, List.countP_cons]

theorem hasConnection_concat :
    HasConnection (lines ++ [line]) ↔
      HasConnection lines ∨ mediaCount lines = 0 ∧ line.1 = byte 'c' := by
  induction lines with
  | nil => simp [HasConnection, mediaCount]
  | cons first lines ih =>
      rw [List.cons_append, HasConnection, HasConnection, ih, mediaCount_cons]
      by_cases hfirst : first.1 = byte 'm'
      · simp [hfirst]
      · simp [hfirst, or_assoc]

/-! ## The session object -/

/-- Which pointers of the session object are set behind these lines. -/
structure Parts (lines : List (UInt8 × List UInt8)) (sdp : Session) : Prop where
  origin : (sdpOriginGet sdp).isSome ↔ HasOrigin lines
  connection : (sdpConnectionGet sdp).isSome ↔ HasConnection lines
  count : sdp.m.count = mediaCount lines
  media : ∀ i < sdp.m.count, ∃ m, sdp.m.get? i = some m ∧ m.media.isSome ∧ m.port.isSome

theorem parts_empty (text : Sdp.Text) : Parts [] { text } where
  origin := by
    refine iff_of_false (fun h => nomatch h) ?_
    exact fun ⟨_, hmem, _⟩ => List.not_mem_nil hmem
  connection := iff_of_false (fun h => nomatch h) id
  count := rfl
  media := fun i hi => absurd hi (Nat.not_lt_zero i)

theorem kind_iff {c : UInt8} (h : (c, kind) ∈ lineKinds) :
    (c = byte 'o' ↔ kind = .o) ∧ (c = byte 'c' ↔ kind = .c) ∧ (c = byte 'm' ↔ kind = .m) := by
  have hall : ∀ line ∈ lineKinds, (line.1 = byte 'o' ↔ line.2 = .o) ∧
      (line.1 = byte 'c' ↔ line.2 = .c) ∧ (line.1 = byte 'm' ↔ line.2 = .m) := by decide
  exact hall _ h

theorem Parts.keep (h : Parts lines sdp) (hkind : (line.1, kind) ∈ lineKinds)
    (hother : kind ≠ .o ∧ kind ≠ .c ∧ kind ≠ .m) (ho : sdp'.o = sdp.o) (hc : sdp'.c = sdp.c)
    (hm : sdp'.m = sdp.m) : Parts (lines ++ [line]) sdp' := by
  obtain ⟨horigin, hconnection, hmedia⟩ := kind_iff hkind
  constructor
  · rw [hasOrigin_concat, horigin, or_iff_left hother.1, ← h.origin]
    unfold sdpOriginGet
    rw [ho]
  · rw [hasConnection_concat, hconnection, or_iff_left (fun hboth => hother.2.1 hboth.2),
      ← h.connection]
    unfold sdpConnectionGet
    rw [hc]
  · rw [mediaCount_concat, if_neg (fun heq => hother.2.2 (hmedia.mp heq)), hm, h.count]
    rfl
  · rw [hm]
    exact h.media

theorem Parts.record (text : Sdp.Text) (r : Recorded) (h : Parts lines sdp)
    (hkind : (line.1, r.kind) ∈ lineKinds)
    (hrecord : { sdp with text }.record r.onMedia r.onSession = .ok sdp') :
    Parts (lines ++ [line]) sdp' := by
  obtain ⟨horigin, hconnection, hmedia⟩ := kind_iff hkind
  have hother : r.kind ≠ .o ∧ r.kind ≠ .m := by cases r <;> exact ⟨nofun, nofun⟩
  have hcount : mediaCount (lines ++ [line]) = mediaCount lines := by
    rw [mediaCount_concat, if_neg (fun heq => hother.2 (hmedia.mp heq))]
    rfl
  have horigin' : HasOrigin (lines ++ [line]) ↔ HasOrigin lines := by
    rw [hasOrigin_concat, horigin, or_iff_left hother.1]
  have hlines : 0 < mediaCount lines ↔ 0 < sdp.m.count := by rw [h.count]
  rcases record_cases hrecord with ⟨hpos, m, hlast, rfl⟩ | ⟨hzero, rfl⟩
  · have hkeeps : (r.onMedia m).media = m.media ∧ (r.onMedia m).port = m.port := by
      cases r <;> exact ⟨rfl, rfl⟩
    have hset : ∀ s : Session, (s.setLastMedia (r.onMedia m)).m.count = s.m.count :=
      fun s => Growable.count_set ..
    have hlast' : sdp.m.get? (sdp.m.count - 1) = some m := get?_of_lastMedia hlast
    constructor
    · rw [horigin']
      exact h.origin
    · rw [hasConnection_concat, or_iff_left (fun hboth => by
        have hpos' := hlines.mpr hpos
        omega)]
      exact h.connection
    · rw [hcount, hset]
      exact h.count
    · intro i hi
      rw [hset] at hi
      change i < sdp.m.count at hi
      by_cases heq : i = sdp.m.count - 1
      · subst heq
        refine ⟨r.onMedia m, Growable.get?_set_self hi _, ?_⟩
        obtain ⟨m', hm', hsome⟩ := h.media _ hi
        obtain rfl : m = m' := Option.some.inj (hlast'.symm.trans hm')
        rwa [hkeeps.1, hkeeps.2]
      · obtain ⟨m', hm', hsome⟩ := h.media i hi
        exact ⟨m', (Growable.get?_set_of_ne heq _).trans hm', hsome⟩
  · have hzero' : mediaCount lines = 0 := h.count.symm.trans hzero
    have hm : (r.onSession { sdp with text }).m = sdp.m := by cases r <;> rfl
    have ho : (r.onSession { sdp with text }).o = sdp.o := by cases r <;> rfl
    constructor
    · rw [horigin', ← h.origin]
      unfold sdpOriginGet
      rw [ho]
    · rw [hasConnection_concat, hconnection, ← h.connection]
      cases r with
      | connection network addrtype address => exact iff_of_true rfl (.inr ⟨hzero', rfl⟩)
      | information i => exact (or_iff_left fun hboth => nomatch hboth.2).symm
      | bandwidth bwtype value => exact (or_iff_left fun hboth => nomatch hboth.2).symm
      | encryption method key => exact (or_iff_left fun hboth => nomatch hboth.2).symm
      | «attribute» name value => exact (or_iff_left fun hboth => nomatch hboth.2).symm
    · rw [hcount, hm, h.count]
    · rw [hm]
      exact h.media

theorem Parts.plain (text : Sdp.Text) (effect : Effect) (h : Parts lines sdp)
    (hkind : (line.1, effect.kind) ∈ lineKinds)
    (happly : effect.apply { sdp with text } = .ok sdp') : Parts (lines ++ [line]) sdp' := by
  obtain ⟨horigin, hconnection, hmedia⟩ := kind_iff hkind
  cases effect with
  | recorded r => exact h.record text r hkind happly
  | origin a b c d e f =>
      obtain rfl := Except.ok.inj happly
      have hletter := horigin.mpr rfl
      have hnotMedia : line.1 ≠ byte 'm' := fun heq => nomatch hmedia.mp heq
      constructor
      · rw [hasOrigin_concat]
        exact iff_of_true rfl (.inr hletter)
      · rw [hasConnection_concat, hconnection, or_iff_left (fun hboth => nomatch hboth.2)]
        exact h.connection
      · rw [mediaCount_concat, if_neg hnotMedia]
        exact h.count
      · exact h.media
  | version | name | y | uri | email | phone | timing =>
      obtain rfl := Except.ok.inj happly
      exact h.keep hkind ⟨nofun, nofun, nofun⟩ rfl rfl rfl

theorem Parts.step (h : Parts lines sdp) (hkind : (line.1, kind) ∈ lineKinds)
    (hchange : Change sdp kind sdp') : Parts (lines ++ [line]) sdp' := by
  cases hchange with
  | plain text effect happly => exact h.plain text effect hkind happly
  | repeats | timezone => exact h.keep hkind (by decide) rfl rfl rfl
  | media text media port proto fmt =>
      obtain ⟨horigin, hconnection, hmedia⟩ := kind_iff hkind
      have hletter := hmedia.mpr rfl
      constructor
      · rw [hasOrigin_concat, horigin, or_iff_left (fun heq => nomatch heq)]
        exact h.origin
      · rw [hasConnection_concat, hconnection, or_iff_left (fun hboth => nomatch hboth.2)]
        exact h.connection
      · rw [mediaCount_concat, if_pos hletter, ← h.count]
        exact Growable.count_push ..
      · intro i hi
        rcases Nat.lt_succ_iff_lt_or_eq.mp ((Growable.count_push ..).symm ▸ hi) with hlt | rfl
        · obtain ⟨m, hm, hsome⟩ := h.media i hlt
          exact ⟨m, (Growable.get?_push_of_lt hlt _).trans hm, hsome⟩
        · exact ⟨_, Growable.get?_push_count .., rfl, rfl⟩

theorem sdpParse_parts {body : List UInt8} (h : Accepts {} (stringAt body 0) lines) :
    ∃ fuel sdp, sdpParse fuel body = .ok sdp ∧ Parts lines sdp := by
  have hstep : ∀ seen line kind sdp sdp', (line.1, kind) ∈ lineKinds → Parts seen sdp →
      BodyRead sdp line.2 kind sdp' → Parts (seen ++ [line]) sdp' :=
    fun _ _ _ _ _ hkind hparts hreads => hparts.step hkind hreads.change
  obtain ⟨sdp, hparse, hparts⟩ := sdpParse_invariant body parts_empty hstep h _ (Nat.le_refl _)
  exact ⟨_, sdp, hparse, hparts⟩

/-! ## The loop over the media -/

theorem sdpGetMedia_of_parts (h : Parts lines sdp) {i : Nat} (hi : i < sdp.m.count) :
    ∃ m media port, sdpGetMedia sdp i = some m ∧ m.media = some media ∧ m.port = some port := by
  obtain ⟨m, hm, hmedia, hport⟩ := h.media i hi
  obtain ⟨media, hmedia⟩ := Option.isSome_iff_exists.mp hmedia
  obtain ⟨port, hport⟩ := Option.isSome_iff_exists.mp hport
  exact ⟨m, media, port, (if_neg (Nat.not_le.mpr hi)).trans hm, hmedia, hport⟩

theorem mediaRound_ok (h : Parts lines sdp) (f : Filled) {i : Nat} (hi : i < sdp.m.count) :
    ∃ f', mediaRound sdp f i = .ok f' := by
  obtain ⟨m, media, port, hm, hmedia, hport⟩ := sdpGetMedia_of_parts h hi
  have htype : sdpMediaType sdp i = some media := by
    rw [sdpMediaType, hm]
    exact hmedia
  unfold mediaRound
  simp only [htype, deref, ok_bind]
  split
  · simp only [fillVideo, sdpMediaPort, hm, hport, deref, ok_bind]
    exact ⟨_, rfl⟩
  · exact ⟨f, rfl⟩

theorem mediaRounds_ok (h : Parts lines sdp) (rounds : List Nat)
    (hrounds : ∀ i ∈ rounds, i < sdp.m.count) :
    ∀ f, ∃ f', rounds.foldlM (mediaRound sdp) f = .ok f' := by
  induction rounds with
  | nil => exact fun f => ⟨f, rfl⟩
  | cons i rounds ih =>
      intro f
      obtain ⟨f₁, hf₁⟩ := mediaRound_ok h f (hrounds i (List.mem_cons_self ..))
      obtain ⟨f₂, hf₂⟩ := ih (fun j hj => hrounds j (List.mem_cons_of_mem _ hj)) f₁
      exact ⟨f₂, by rw [List.foldlM_cons, bind_eq_ok]; exact ⟨f₁, hf₁, hf₂⟩⟩

theorem toS32_toNat_le (n : Nat) : (Bytes.toS32 n).toNat ≤ n := by
  unfold Bytes.toS32
  rw [Int.bmod_def]
  split <;> omega

/-! ## The call -/

theorem deref_eq_ok {α : Type} {p : Option α} {a : α} : deref p = .ok a ↔ p = some a := by
  cases p with
  | none => exact iff_of_false (fun h => nomatch h) (fun h => nomatch h)
  | some b =>
      refine ⟨fun h => congrArg some (Except.ok.inj h), fun h => ?_⟩
      rw [Option.some.inj h]
      rfl

theorem sdpParsed_eq_some {fuel : Nat} {s : List UInt8} :
    sdpParsed fuel s = .ok (some sdp) ↔ sdpParse fuel s = .ok sdp := by
  unfold sdpParsed
  constructor
  · intro h
    split at h
    · rename_i hparse
      rwa [Option.some.inj (Except.ok.inj h)] at hparse
    · cases h
    · cases h
  · intro h
    rw [h]

theorem paraseInvite_eq_ok {pSipMsg : OsipMessage} {fuel : Nat} {answer : Answer} :
    paraseInvite fuel pSipMsg = .ok answer ↔ ∃ body sdp, pSipMsg.body = some body ∧
      sdpParse fuel body = .ok sdp ∧ paraseParsed sdp pSipMsg.number = .ok answer := by
  constructor
  · intro h
    obtain ⟨body, hbody, h⟩ := bind_eq_ok.mp h
    obtain ⟨pSdp, hparsed, h⟩ := bind_eq_ok.mp h
    obtain ⟨sdp, hsdp, hanswer⟩ := bind_eq_ok.mp h
    obtain rfl := deref_eq_ok.mp hsdp
    exact ⟨body, sdp, deref_eq_ok.mp hbody, sdpParsed_eq_some.mp hparsed, hanswer⟩
  · rintro ⟨body, sdp, hbody, hparse, hanswer⟩
    rw [paraseInvite, deref_eq_ok.mpr hbody, ok_bind, sdpParsed_eq_some.mpr hparse, ok_bind,
      deref_eq_ok.mpr rfl, ok_bind]
    exact hanswer

theorem paraseSession_ok_iff (sdp : Session) (number : Option Call.Text) :
    (∃ args, paraseSession sdp number = .ok args) ↔
      (sdpOriginGet sdp).isSome ∧ (sdpConnectionGet sdp).isSome := by
  unfold paraseSession
  cases sdpOriginGet sdp with
  | none =>
      refine iff_of_false ?_ fun h => Bool.false_ne_true h.1
      rintro ⟨args, h⟩
      cases h
  | some o =>
      cases sdpConnectionGet sdp with
      | none =>
          refine iff_of_false ?_ fun h => Bool.false_ne_true h.2
          rintro ⟨args, h⟩
          cases h
      | some c => exact iff_of_true ⟨_, rfl⟩ ⟨rfl, rfl⟩

/-- What is behind `sdp_parse` returns unless origin or connection are missing. -/
theorem paraseParsed_ok_iff (h : Parts lines sdp) (number : Option Call.Text) :
    (∃ answer, paraseParsed sdp number = .ok answer) ↔
      Bytes.toS32 (mediaCount lines) < 0 ∨ HasOrigin lines ∧ HasConnection lines := by
  rw [← h.count, ← h.origin, ← h.connection, ← paraseSession_ok_iff sdp number]
  unfold paraseParsed sdpMediaCount
  dsimp only
  by_cases hneg : Bytes.toS32 sdp.m.count < 0
  · rw [if_pos hneg]
    exact iff_of_true ⟨_, rfl⟩ (.inl hneg)
  · rw [if_neg hneg, or_iff_right hneg]
    constructor
    · rintro ⟨answer, hanswer⟩
      obtain ⟨args, hargs, -⟩ := bind_eq_ok.mp hanswer
      exact ⟨args, hargs⟩
    · rintro ⟨args, hargs⟩
      obtain ⟨filled, hfilled⟩ := mediaRounds_ok h (List.range (Bytes.toS32 sdp.m.count).toNat)
        (fun i hi => Nat.lt_of_lt_of_le (List.mem_range.mp hi) (toS32_toNat_le sdp.m.count))
        { args }
      refine ⟨.success filled, bind_eq_ok.mpr ⟨args, hargs, ?_⟩⟩
      exact bind_eq_ok.mpr ⟨filled, hfilled, rfl⟩

end GbStream.Invite
