import GbStream.Invite.Fields
import GbStream.Sdp.Contents

/-!
# Invitations that are answered

`parase_invite` uses pointers that may be null, and `sscanf` writes the parts of `a=sms` to arrays
that may be too short for them.  What comes of it is decided by the lines of the body alone.
-/

namespace GbStream.Invite

open Support Support.CString Sdp Call

variable {lines : List (UInt8 × List UInt8)} {sdp : Session} {number : Option Call.Text}

/-- The call returns, with the parameters or with a failure, and nothing is written behind the
arrays of `a=sms`. -/
def Answers (pSipMsg : OsipMessage) : Prop :=
  ∃ fuel answer, paraseInvite fuel pSipMsg = .ok answer ∧ answer.filled.overrun = false

/-- The lines give no video, among those that the loop comes to, a first `a=sms` with a part that
is too long for its array. -/
def SourcesFit (lines : List (UInt8 × List UInt8)) : Prop :=
  ∀ i < (Bytes.toS32 (mediaCount lines)).toNat, ∀ x ∈ (contents lines).medias[i]?,
    x.1.media = ascii "video" → ∀ value ∈ x.2.attributes.lookup (ascii "sms"), SmsFits value

theorem smsOf_eq (h : SessionHolds sdp (contents lines)) (i : Nat) :
    smsOf sdp i = (contents lines).medias[i]?.bind fun x =>
      if x.1.media = ascii "video" then x.2.attributes.lookup (ascii "sms") else none := by
  rw [smsOf, h.mediaType, h.mediaAttributeFind]
  cases (contents lines).medias[i]? with
  | none => rfl
  | some x => simp

theorem sourcesFit_iff (hparts : Parts lines sdp) (hholds : SessionHolds sdp (contents lines)) :
    SourcesFit lines ↔
      ∀ i < (Bytes.toS32 (sdpMediaCount sdp)).toNat, ∀ value ∈ smsOf sdp i, SmsFits value := by
  unfold SourcesFit sdpMediaCount
  rw [hparts.count]
  apply forall₂_congr
  intro i _
  rw [smsOf_eq hholds]
  cases (contents lines).medias[i]? with
  | none => simp
  | some x =>
      by_cases hvideo : x.1.media = ascii "video"
      · simp [hvideo]
      · simp [hvideo]

theorem paraseParsed_answers_iff (hparts : Parts lines sdp)
    (hholds : SessionHolds sdp (contents lines)) (number : Option Call.Text) :
    (∃ answer, paraseParsed sdp number = .ok answer ∧ answer.filled.overrun = false) ↔
      Bytes.toS32 (mediaCount lines) < 0 ∨
        HasOrigin lines ∧ HasConnection lines ∧ SourcesFit lines := by
  by_cases hneg : Bytes.toS32 (mediaCount lines) < 0
  · refine iff_of_true ⟨.failure, ?_, rfl⟩ (.inl hneg)
    rw [paraseParsed, sdpMediaCount, hparts.count, if_pos hneg]
  · have hok := paraseParsed_ok_iff hparts number
    rw [or_iff_right hneg] at hok ⊢
    have hfits : ∀ answer, paraseParsed sdp number = .ok answer →
        (answer.filled.overrun = false ↔ SourcesFit lines) := by
      intro answer hanswer
      rw [paraseParsed, sdpMediaCount, hparts.count, if_neg hneg] at hanswer
      obtain ⟨args, -, hrest⟩ := bind_eq_ok.mp hanswer
      obtain ⟨filled, hfilled, hdone⟩ := bind_eq_ok.mp hrest
      obtain rfl := Except.ok.inj hdone
      rw [← hparts.count] at hfilled
      exact (filled_overrun_iff hfilled).trans (sourcesFit_iff hparts hholds).symm
    constructor
    · rintro ⟨answer, hanswer, hinside⟩
      obtain ⟨horigin, hconnection⟩ := hok.mp ⟨answer, hanswer⟩
      exact ⟨horigin, hconnection, (hfits answer hanswer).mp hinside⟩
    · rintro ⟨horigin, hconnection, hsources⟩
      obtain ⟨answer, hanswer⟩ := hok.mpr ⟨horigin, hconnection⟩
      exact ⟨answer, hanswer, (hfits answer hanswer).mpr hsources⟩

/-- A session that is returned for a body comes from lines that it holds. -/
theorem sdpParse_lines {body : List UInt8} (h : Accepts {} (stringAt body 0) lines) :
    ∃ fuel sdp, sdpParse fuel body = .ok sdp ∧ Parts lines sdp ∧
      SessionHolds sdp (contents lines) := by
  obtain ⟨fuel, sdp, hparse, hparts⟩ := sdpParse_parts h
  obtain ⟨fuel', sdp', hparse', hholds⟩ := sdpParse_of_accepts h
  obtain rfl := sdpParse_eq hparse hparse'
  exact ⟨_, _, hparse, hparts, hholds⟩

/-- **An invitation is answered** if and only if it has a body, the parser accepts the body, and
there is an `o=` line, a `c=` line in front of the first `m=` line, and no `a=sms` of a video that
is too long, or there are more `m=` lines than an `int` counts. -/
theorem paraseInvite_answers (pSipMsg : OsipMessage) :
    Answers pSipMsg ↔ ∃ body lines, pSipMsg.body = some body ∧
      Accepts {} (stringAt body 0) lines ∧
      (Bytes.toS32 (mediaCount lines) < 0 ∨
        HasOrigin lines ∧ HasConnection lines ∧ SourcesFit lines) := by
  unfold Answers
  simp only [paraseInvite_eq_ok]
  constructor
  · rintro ⟨fuel, answer, ⟨body, sdp, hbody, hparse, hanswer⟩, hinside⟩
    obtain ⟨lines, haccepts⟩ := sdpParse_ok_accepts hparse
    obtain ⟨fuel', sdp', hparse', hparts, hholds⟩ := sdpParse_lines haccepts
    obtain rfl := sdpParse_eq hparse hparse'
    exact ⟨body, lines, hbody, haccepts,
      (paraseParsed_answers_iff hparts hholds _).mp ⟨answer, hanswer, hinside⟩⟩
  · rintro ⟨body, lines, hbody, haccepts, hlines⟩
    obtain ⟨fuel, sdp, hparse, hparts, hholds⟩ := sdpParse_lines haccepts
    obtain ⟨answer, hanswer, hinside⟩ :=
      (paraseParsed_answers_iff hparts hholds pSipMsg.number).mpr hlines
    exact ⟨fuel, answer, ⟨body, sdp, hbody, hparse, hanswer⟩, hinside⟩

/-! ## Invitations that are fatal -/

/-- A null pointer that is used with some fuel is used with any that suffices. -/
theorem not_answers_of_null {pSipMsg : OsipMessage} (fuel : Nat)
    (h : paraseInvite fuel pSipMsg = .error .null) : ¬ Answers pSipMsg := by
  rintro ⟨fuel', answer, hanswer, -⟩
  obtain ⟨body, sdp, hbody, hparse, hanswer⟩ := paraseInvite_eq_ok.mp hanswer
  rw [paraseInvite, deref_eq_ok.mpr hbody, ok_bind] at h
  cases hfuel : sdpParse fuel body with
  | ok sdp' =>
      obtain rfl := sdpParse_eq hparse hfuel
      rw [sdpParsed_eq_some.mpr hfuel, ok_bind, deref_eq_ok.mpr rfl, ok_bind, hanswer] at h
      cases h
  | error e =>
      cases e with
      | failed =>
          have hfuel_ne : sdpParse fuel body ≠ .error .outOfFuel := by
            rw [hfuel]
            rintro ⟨⟩
          have hparse_ne : sdpParse fuel' body ≠ .error .outOfFuel := by
            rw [hparse]
            rintro ⟨⟩
          have hsame := sdpParse_same hfuel_ne hparse_ne
          rw [hfuel, hparse] at hsame
          cases hsame
      | assertFailed | outOfBounds | badSlot | outOfFuel =>
          rw [sdpParsed, hfuel] at h
          cases h

def usesNull (r : Except Fault Answer) : Bool :=
  match r with
  | .error .null => true
  | _ => false

theorem usesNull_iff {r : Except Fault Answer} : usesNull r ↔ r = .error .null := by
  unfold usesNull
  split
  · exact iff_of_true rfl rfl
  · rename_i hother
    exact iff_of_false Bool.false_ne_true hother

/-- What is written behind an array with some fuel is written with any that suffices. -/
theorem not_answers_of_overrun {pSipMsg : OsipMessage} {fuel : Nat} {answer : Answer}
    (h : paraseInvite fuel pSipMsg = .ok answer) (hoverrun : answer.filled.overrun = true) :
    ¬ Answers pSipMsg := by
  rintro ⟨fuel', answer', hanswer', hinside⟩
  obtain ⟨body, sdp, hbody, hparse, hanswer⟩ := paraseInvite_eq_ok.mp h
  obtain ⟨body', sdp', hbody', hparse', hanswer'⟩ := paraseInvite_eq_ok.mp hanswer'
  obtain rfl := Option.some.inj (hbody.symm.trans hbody')
  obtain rfl := sdpParse_eq hparse hparse'
  obtain rfl := Except.ok.inj (hanswer.symm.trans hanswer')
  rw [hoverrun] at hinside
  cases hinside

def overrunsBy (r : Except Fault Answer) : Bool :=
  match r with
  | .ok answer => answer.filled.overrun
  | .error _ => false

theorem exists_of_overrunsBy {r : Except Fault Answer} (h : overrunsBy r) :
    ∃ answer, r = .ok answer ∧ answer.filled.overrun = true := by
  unfold overrunsBy at h
  split at h
  · exact ⟨_, rfl, h⟩
  · cases h

/-- No body, a body that is refused, no `o=` line, a `c=` line in the section of a media only, and
a port of eight bytes in `a=sms`: each is fatal. -/
theorem paraseInvite_fatal :
    ¬ Answers { body := none, number := none } ∧ ¬ Answers (inviteOf "v0") ∧
      ¬ Answers (inviteOf "v=0\r\nc=IN IP4 10.0.0.1\r\n") ∧
      ¬ Answers (inviteOf "o=a 0 0 IN IP4 b\r\nm=video 9 RTP/AVP 96\r\nc=IN IP4 10.0.0.1\r\n") ∧
      ¬ Answers (videoInvite "34020000002000000001" "10.0.0.2:00000700/5a12") := by
  refine ⟨not_answers_of_null 0 rfl, not_answers_of_null 16 ?_, not_answers_of_null 16 ?_,
    not_answers_of_null 64 ?_, ?_⟩
  · exact usesNull_iff.mp (by decide +kernel)
  · exact usesNull_iff.mp (by decide +kernel)
  · exact usesNull_iff.mp (by decide +kernel)
  · obtain ⟨answer, hanswer, hoverrun⟩ := exists_of_overrunsBy
      (r := paraseInvite 128 (videoInvite "34020000002000000001" "10.0.0.2:00000700/5a12"))
      (by decide +kernel)
    exact not_answers_of_overrun hanswer hoverrun

end GbStream.Invite
