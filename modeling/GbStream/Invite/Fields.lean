import GbStream.Invite.Pointers

/-!
# The fields of a call

Every field that `parase_invite` fills is an array of fixed size, and the tokens of an
invitation have any length.
-/

namespace GbStream.Invite

open Support Support.CString Sdp Call

variable {sdp : Session} {number : Option Call.Text} {f f' : Filled} {i : Nat}

/-! ## What should hold -/

/-- Each field holds a string that ends in it, and nothing is written behind a field or behind
the buffer of the port. -/
structure Filled.Kept (f : Filled) : Prop where
  overrun : f.overrun = false
  cSsrc : f.args.cSsrc.Terminated
  cCallId : f.args.cCallId.Terminated
  cDevSn : f.args.cDevSn.Terminated
  cPushIp : f.args.cPushIp.Terminated
  cDevId : f.args.cDevId.Terminated
  cStreamSourceIp : f.args.cStreamSourceIp.Terminated

/-- The record behind the call; a failure leaves it cleared. -/
def Answer.filled : Answer → Filled
  | .success filled => filled
  | .failure => {}

/-- The parts of `a=sms`. -/
def SmsFits (value : List UInt8) : Prop :=
  (∀ w ∈ (sscanfSms value).ip, w.length < 16) ∧ (∀ w ∈ (sscanfSms value).port, w.length < 8) ∧
    ∀ w ∈ (sscanfSms value).devId, w.length < 128

instance : DecidablePred SmsFits := fun _ => inferInstanceAs (Decidable (_ ∧ _ ∧ _))

/-- The value of `a=sms` in a media, if it is a video. -/
def smsOf (sdp : Session) (i : Nat) : Option (List UInt8) :=
  if (sdpMediaType sdp i).map sdp.string = some (ascii "video") then
    (sdpMediaAttributeFind sdp i (ascii "sms")).map sdp.string
  else none

/-- Each token is shorter than its field. -/
structure Fits (sdp : Session) (number : Option Call.Text) : Prop where
  userName : ∀ w ∈ (sdpOriginGet sdp).map fun o => sdp.string o.1, w.length < 32
  address : ∀ w ∈ (sdpConnectionGet sdp).map fun c => sdp.string c.2.2, w.length < 16
  y : ∀ w ∈ (sdpYGet sdp).map sdp.string, w.length < 16
  number : ∀ w ∈ number, w.1.length < 32
  sms : ∀ i < (Bytes.toS32 (sdpMediaCount sdp)).toNat, ∀ value ∈ smsOf sdp i, SmsFits value

/-! ## The loop over the media -/

/-- What the loop leaves alone, and what it does to the other two fields. -/
structure Round (fits : Prop) (f f' : Filled) : Prop where
  cSsrc : f'.args.cSsrc = f.args.cSsrc
  cCallId : f'.args.cCallId = f.args.cCallId
  cDevSn : f'.args.cDevSn = f.args.cDevSn
  cPushIp : f'.args.cPushIp = f.args.cPushIp
  iDevChnl : f'.args.iDevChnl = f.args.iDevChnl
  overrun : f'.overrun = false ↔ f.overrun = false ∧ fits
  terminated : fits → f.args.cDevId.Terminated → f.args.cStreamSourceIp.Terminated →
    f'.args.cDevId.Terminated ∧ f'.args.cStreamSourceIp.Terminated

theorem overruns_eq_false {n : Nat} {w? : Option (List UInt8)} :
    overruns n w? = false ↔ ∀ w ∈ w?, w.length < n := by
  cases w? with
  | none => simp [overruns]
  | some w => simp [overruns]

theorem Filled.scanSms_round (f : Filled) (value : List UInt8) :
    Round (SmsFits value) f (f.scanSms value) where
  cSsrc := rfl
  cCallId := rfl
  cDevSn := rfl
  cPushIp := rfl
  iDevChnl := rfl
  overrun := by
    simp only [Filled.scanSms, Bool.or_eq_false_iff, overruns_eq_false, SmsFits, and_assoc]
  terminated := by
    rintro ⟨hip, -, hdevId⟩ hcDevId hcIp
    unfold Filled.scanSms
    constructor
    · cases hw : (sscanfSms value).devId with
      | none => simpa [hw] using hcDevId
      | some w => simpa [hw] using terminated_write (hdevId w hw)
    · cases hw : (sscanfSms value).ip with
      | none => simpa [hw] using hcIp
      | some w => simpa [hw] using terminated_write (hip w hw)

theorem Round.refl (f : Filled) : Round True f f where
  cSsrc := rfl
  cCallId := rfl
  cDevSn := rfl
  cPushIp := rfl
  iDevChnl := rfl
  overrun := (and_iff_left trivial).symm
  terminated := fun _ hcDevId hcIp => ⟨hcDevId, hcIp⟩

theorem Round.trans {p q : Prop} {f f₁ f₂ : Filled} (h : Round p f f₁) (h' : Round q f₁ f₂) :
    Round (p ∧ q) f f₂ where
  cSsrc := h'.cSsrc.trans h.cSsrc
  cCallId := h'.cCallId.trans h.cCallId
  cDevSn := h'.cDevSn.trans h.cDevSn
  cPushIp := h'.cPushIp.trans h.cPushIp
  iDevChnl := h'.iDevChnl.trans h.iDevChnl
  overrun := by rw [h'.overrun, h.overrun, and_assoc]
  terminated := fun hfits hcDevId hcIp =>
    let ⟨hcDevId₁, hcIp₁⟩ := h.terminated hfits.1 hcDevId hcIp
    h'.terminated hfits.2 hcDevId₁ hcIp₁

theorem Filled.video_round (f : Filled) (iPushPort : Int32) (sms streamMode : Option (List UInt8)) :
    Round (∀ value ∈ sms, SmsFits value) f (f.video iPushPort sms streamMode) := by
  cases sms with
  | none =>
      have h := Round.refl f
      exact
        { h with
          overrun := by simp [Filled.video]
          terminated := fun _ => h.terminated trivial }
  | some value =>
      have h := f.scanSms_round value
      exact
        { h with
          overrun := by simpa [Filled.video, Filled.scanSms] using h.overrun
          terminated := fun hfits => h.terminated (hfits value rfl) }

theorem mediaRound_round (h : mediaRound sdp f i = .ok f') :
    Round (∀ value ∈ smsOf sdp i, SmsFits value) f f' := by
  obtain ⟨pMediaType, htype, h⟩ := bind_eq_ok.mp h
  rw [deref_eq_ok] at htype
  have hsms : smsOf sdp i = if sdp.string pMediaType = ascii "video" then
      (sdpMediaAttributeFind sdp i (ascii "sms")).map sdp.string else none := by
    simp [smsOf, htype]
  rw [hsms]
  split at h
  · rename_i hvideo
    obtain ⟨port, -, hfill⟩ := bind_eq_ok.mp h
    obtain rfl := Except.ok.inj hfill
    rw [if_pos hvideo]
    exact f.video_round _ _ _
  · rename_i hvideo
    obtain rfl := Except.ok.inj h
    rw [if_neg hvideo]
    have hrefl := Round.refl f
    exact
      { hrefl with
        overrun := by simp
        terminated := fun _ => hrefl.terminated trivial }

theorem mediaRounds_round (rounds : List Nat) :
    ∀ {f f' : Filled}, rounds.foldlM (mediaRound sdp) f = .ok f' →
      Round (∀ i ∈ rounds, ∀ value ∈ smsOf sdp i, SmsFits value) f f' := by
  induction rounds with
  | nil =>
      intro f f' h
      obtain rfl := Except.ok.inj h
      have hrefl := Round.refl f
      exact
        { hrefl with
          overrun := by simp
          terminated := fun _ => hrefl.terminated trivial }
  | cons i rounds ih =>
      intro f f' h
      rw [List.foldlM_cons] at h
      obtain ⟨f₁, hfirst, hrest⟩ := bind_eq_ok.mp h
      have htrans := (mediaRound_round hfirst).trans (ih hrest)
      rwa [← List.forall_mem_cons (p := fun i => ∀ value ∈ smsOf sdp i, SmsFits value)] at htrans

/-! ## The call -/

theorem noNul_string {α : Type} {p : Option α} (ptr : α → Nat) :
    ∀ w ∈ p.map fun x => sdp.string (ptr x), 0 ∉ w := by
  intro w hw
  obtain ⟨x, -, rfl⟩ := Option.map_eq_some_iff.mp hw
  exact noNul_stringAt sdp.text.raw (ptr x)

theorem terminated_getD {w? : Option (List UInt8)} (hw : ∀ w ∈ w?, 0 ∉ w) {n : Nat} (hn : 0 < n) :
    (strncpy (w?.getD []) n).Terminated ↔ ∀ w ∈ w?, w.length < n := by
  cases w? with
  | none => simpa [terminated_strncpy_iff] using hn
  | some w => simp [terminated_strncpy_iff (hw w rfl)]

structure SessionArgs (sdp : Session) (number : Option Call.Text) (args : SipDevArgs) : Prop where
  cDevSn : args.cDevSn =
    strncpy (((sdpOriginGet sdp).map fun o => sdp.string o.1).getD []) 32
  cPushIp : args.cPushIp =
    strncpy (((sdpConnectionGet sdp).map fun c => sdp.string c.2.2).getD []) 16
  cSsrc : args.cSsrc = strncpy (((sdpYGet sdp).map sdp.string).getD []) 16
  cCallId : args.cCallId = strncpy ((number.map Subtype.val).getD []) 32
  cDevId : args.cDevId = strncpy [] 128
  cStreamSourceIp : args.cStreamSourceIp = strncpy [] 16
  iDevChnl : args.iDevChnl = 0

theorem paraseSession_args {args : SipDevArgs} (h : paraseSession sdp number = .ok args) :
    SessionArgs sdp number args := by
  obtain ⟨userName, ho, h⟩ := bind_eq_ok.mp h
  obtain ⟨address, hc, hargs⟩ := bind_eq_ok.mp h
  rw [deref_eq_ok, Option.map_eq_some_iff] at ho hc
  obtain ⟨o, ho, rfl⟩ := ho
  obtain ⟨c, hc, rfl⟩ := hc
  obtain rfl := Except.ok.inj hargs
  constructor
  · rw [ho]
    rfl
  · rw [hc]
    rfl
  all_goals rfl

/-- The loop stays inside the arrays of `a=sms` if the parts of all values fit. -/
theorem filled_overrun_iff {args : SipDevArgs} {filled : Filled}
    (hfilled : (List.range (Bytes.toS32 (sdpMediaCount sdp)).toNat).foldlM (mediaRound sdp)
      { args } = .ok filled) :
    filled.overrun = false ↔
      ∀ i < (Bytes.toS32 (sdpMediaCount sdp)).toNat, ∀ value ∈ smsOf sdp i, SmsFits value := by
  rw [(mediaRounds_round _ hfilled).overrun]
  simp

theorem filled_kept_iff {args : SipDevArgs} {filled : Filled}
    (hargs : paraseSession sdp number = .ok args)
    (hfilled : (List.range (Bytes.toS32 (sdpMediaCount sdp)).toNat).foldlM (mediaRound sdp)
      { args } = .ok filled) : filled.Kept ↔ Fits sdp number := by
  have hsession := paraseSession_args hargs
  have hround := mediaRounds_round _ hfilled
  have huserName : filled.args.cDevSn.Terminated ↔
      ∀ w ∈ (sdpOriginGet sdp).map fun o => sdp.string o.1, w.length < 32 := by
    rw [hround.cDevSn, hsession.cDevSn]
    exact terminated_getD (noNul_string Prod.fst) (by decide)
  have haddress : filled.args.cPushIp.Terminated ↔
      ∀ w ∈ (sdpConnectionGet sdp).map fun c => sdp.string c.2.2, w.length < 16 := by
    rw [hround.cPushIp, hsession.cPushIp]
    exact terminated_getD (noNul_string fun c : Nat × Nat × Nat => c.2.2) (by decide)
  have hy : filled.args.cSsrc.Terminated ↔
      ∀ w ∈ (sdpYGet sdp).map sdp.string, w.length < 16 := by
    rw [hround.cSsrc, hsession.cSsrc]
    exact terminated_getD (noNul_string id) (by decide)
  have hnumber : filled.args.cCallId.Terminated ↔ ∀ w ∈ number, w.1.length < 32 := by
    rw [hround.cCallId, hsession.cCallId]
    cases number with
    | none => exact iff_of_true (by decide) fun w hw => nomatch hw
    | some number => simp [terminated_strncpy_iff number.2]
  have hoverrun := filled_overrun_iff hfilled
  constructor
  · intro h
    exact ⟨huserName.mp h.cDevSn, haddress.mp h.cPushIp, hy.mp h.cSsrc, hnumber.mp h.cCallId,
      hoverrun.mp h.overrun⟩
  · intro h
    have hloop := hround.terminated (fun i hi => h.sms i (List.mem_range.mp hi))
      (by rw [hsession.cDevId]; decide) (by rw [hsession.cStreamSourceIp]; decide)
    exact ⟨hoverrun.mpr h.sms, hy.mpr h.y, hnumber.mpr h.number, huserName.mpr h.userName,
      haddress.mpr h.address, hloop.1, hloop.2⟩

/-- **The fields are kept** by a call for a body that parses and has the lines that are read,
if and only if each token is shorter than its field. -/
theorem paraseInvite_kept {pSipMsg : OsipMessage} {body : List UInt8} {fuel : Nat}
    (hbody : pSipMsg.body = some body) (hparse : sdpParse fuel body = .ok sdp)
    (horigin : (sdpOriginGet sdp).isSome) (hconnection : (sdpConnectionGet sdp).isSome) :
    ∃ answer, paraseInvite fuel pSipMsg = .ok answer ∧
      (answer.filled.Kept ↔ Bytes.toS32 (sdpMediaCount sdp) < 0 ∨ Fits sdp pSipMsg.number) := by
  obtain ⟨lines, haccepts⟩ := sdpParse_ok_accepts hparse
  obtain ⟨fuel', sdp', hparse', hparts⟩ := sdpParse_parts haccepts
  obtain rfl := sdpParse_eq hparse hparse'
  obtain ⟨answer, hanswer⟩ := (paraseParsed_ok_iff hparts pSipMsg.number).mpr
    (.inr ⟨hparts.origin.mp horigin, hparts.connection.mp hconnection⟩)
  refine ⟨answer, paraseInvite_eq_ok.mpr ⟨body, sdp', hbody, hparse, hanswer⟩, ?_⟩
  unfold paraseParsed at hanswer
  dsimp only at hanswer
  split at hanswer
  · rename_i hneg
    obtain rfl := Except.ok.inj hanswer
    exact iff_of_true ⟨rfl, by decide, by decide, by decide, by decide, by decide, by decide⟩
      (.inl hneg)
  · rename_i hnonneg
    obtain ⟨args, hargs, hrest⟩ := bind_eq_ok.mp hanswer
    obtain ⟨filled, hfilled, hdone⟩ := bind_eq_ok.mp hrest
    obtain rfl := Except.ok.inj hdone
    rw [or_iff_right hnonneg]
    exact filled_kept_iff hargs hfilled

/-! ## What it means for descriptions and for the table of calls -/

theorem smsFits_iff_of_understood {d : Description} (h : Understood sdp d) (i : Nat) :
    (∀ value ∈ smsOf sdp i, SmsFits value) ↔
      ∀ x ∈ d.medias[i]?, x.1.media = ascii "video" →
        ∀ value ∈ x.2.attributes.lookup (ascii "sms"), SmsFits value := by
  unfold smsOf
  rw [h.mediaType, h.mediaAttributeFind]
  cases d.medias[i]? with
  | none => simp
  | some x =>
      by_cases hvideo : x.1.media = ascii "video"
      · simp [hvideo]
      · simp [hvideo]

/-- For a description that is understood the tokens are those of its lines. -/
theorem fits_iff_of_understood {d : Description} (h : Understood sdp d) :
    Fits sdp number ↔ (∀ o ∈ d.origin, o.1.length < 32) ∧
      (∀ c ∈ d.session.connections.getLast?, c.2.2.length < 16) ∧
      (∀ w ∈ d.y, w.length < 16) ∧ (∀ w ∈ number, w.1.length < 32) ∧
      ∀ i < (Bytes.toS32 d.medias.length).toNat, ∀ x ∈ d.medias[i]?, x.1.media = ascii "video" →
        ∀ value ∈ x.2.attributes.lookup (ascii "sms"), SmsFits value := by
  have horigin : (∀ w ∈ (sdpOriginGet sdp).map fun o => sdp.string o.1, w.length < 32) ↔
      ∀ o ∈ d.origin, o.1.length < 32 := by
    rw [← h.originGet]
    cases sdpOriginGet sdp <;> simp
  have hconnection : (∀ w ∈ (sdpConnectionGet sdp).map fun c => sdp.string c.2.2, w.length < 16) ↔
      ∀ c ∈ d.session.connections.getLast?, c.2.2.length < 16 := by
    rw [← h.connectionGet]
    cases sdpConnectionGet sdp <;> simp
  have hsms := smsFits_iff_of_understood h
  constructor
  · intro hfits
    refine ⟨horigin.mp hfits.userName, hconnection.mp hfits.address, h.yGet ▸ hfits.y,
      hfits.number, fun i hi => (hsms i).mp (hfits.sms i ?_)⟩
    rwa [h.mediaCount]
  · rintro ⟨ho, hc, hy, hnumber, hmedia⟩
    refine ⟨horigin.mpr ho, hconnection.mpr hc, h.yGet.symm ▸ hy, hnumber, fun i hi => ?_⟩
    rw [h.mediaCount] at hi
    exact (hsms i).mpr (hmedia i hi)

/-- The record that the table of calls is given for an invitation with a Call-ID. -/
theorem paraseInvite_eq_call {pSipMsg : OsipMessage} {fuel : Nat} {filled : Filled}
    {number : Call.Text} (h : paraseInvite fuel pSipMsg = .ok (.success filled))
    (hnumber : pSipMsg.number = some number) :
    ∃ pUserName : Call.Text, filled.args =
      Call.paraseInvite
        { number, pUserName, cSsrc := filled.args.cSsrc, cPushIp := filled.args.cPushIp
          iPushPort := filled.args.iPushPort, cDevId := filled.args.cDevId
          iStreamType := filled.args.iStreamType
          cStreamSourceIp := filled.args.cStreamSourceIp
          iStreamSourcePort := filled.args.iStreamSourcePort } := by
  obtain ⟨body, sdp, -, -, hparsed⟩ := paraseInvite_eq_ok.mp h
  unfold paraseParsed at hparsed
  dsimp only at hparsed
  split at hparsed
  · cases hparsed
  · obtain ⟨args, hargs, hrest⟩ := bind_eq_ok.mp hparsed
    obtain ⟨filled', hfilled, hdone⟩ := bind_eq_ok.mp hrest
    obtain rfl : filled' = filled := Answer.success.inj (Except.ok.inj hdone)
    have hsession := paraseSession_args hargs
    have hround := mediaRounds_round _ hfilled
    obtain ⟨userName, hname, -⟩ := bind_eq_ok.mp hargs
    rw [deref_eq_ok, Option.map_eq_some_iff] at hname
    obtain ⟨o, ho, rfl⟩ := hname
    have hcDevSn := hround.cDevSn.trans hsession.cDevSn
    have hcCallId := hround.cCallId.trans hsession.cCallId
    have hiDevChnl := hround.iDevChnl.trans hsession.iDevChnl
    rw [ho] at hcDevSn
    rw [hnumber] at hcCallId
    refine ⟨⟨sdp.string o.1, noNul_stringAt _ _⟩, ?_⟩
    obtain ⟨args', overrun⟩ := filled'
    obtain ⟨cSsrc, cCallId, cDevSn, cPushIp, iPushPort, cDevId, iDevChnl, _, _, _⟩ := args'
    dsimp only at hcDevSn hcCallId hiDevChnl
    subst hcDevSn hcCallId hiDevChnl
    rfl

/-! ## Tokens that do not fit -/

instance : DecidablePred Filled.Kept := fun f =>
  decidable_of_iff
    (f.overrun = false ∧ f.args.cSsrc.Terminated ∧ f.args.cCallId.Terminated ∧
      f.args.cDevSn.Terminated ∧ f.args.cPushIp.Terminated ∧ f.args.cDevId.Terminated ∧
      f.args.cStreamSourceIp.Terminated)
    ⟨fun ⟨h, h₁, h₂, h₃, h₄, h₅, h₆⟩ => ⟨h, h₁, h₂, h₃, h₄, h₅, h₆⟩,
      fun ⟨h, h₁, h₂, h₃, h₄, h₅, h₆⟩ => ⟨h, h₁, h₂, h₃, h₄, h₅, h₆⟩⟩

def readable (r : Except Stop Session) : Bool :=
  match r with
  | .ok sdp => (sdpOriginGet sdp).isSome && (sdpConnectionGet sdp).isSome
  | .error _ => false

theorem exists_of_readable {r : Except Stop Session} (h : readable r) :
    ∃ sdp, r = .ok sdp ∧ (sdpOriginGet sdp).isSome ∧ (sdpConnectionGet sdp).isSome := by
  unfold readable at h
  split at h
  · exact ⟨_, rfl, Bool.and_eq_true_iff.mp h⟩
  · cases h

/-- An `INVITE` with this text as its body. -/
def inviteOf (text : String) : OsipMessage where
  body := some (ascii text ++ [0])
  number := none

/-- An invitation of a video. -/
def videoInvite (userName sms : String) : OsipMessage :=
  inviteOf ("o=" ++ userName ++ " 0 0 IN IP4 b\r\nc=IN IP4 10.0.0.1\r\nm=video 9 RTP/AVP 96\r\n" ++
    "a=sms:" ++ sms ++ "\r\n")

theorem paraseInvite_kept_video :
    ∃ sdp answer, paraseInvite 128 (videoInvite "34020000002000000001" "10.0.0.2:700/5a12") =
        .ok answer ∧
      (answer.filled.Kept ↔ Bytes.toS32 (sdpMediaCount sdp) < 0 ∨ Fits sdp none) := by
  obtain ⟨sdp, hparse, horigin, hconnection⟩ := exists_of_readable
    (r := sdpParse 128 ((videoInvite "34020000002000000001" "10.0.0.2:700/5a12").body.getD []))
    (by decide +kernel)
  exact ⟨sdp, paraseInvite_kept rfl hparse horigin hconnection⟩

def breaks (r : Except Fault Answer) : Bool :=
  match r with
  | .ok answer => !decide answer.filled.Kept
  | .error _ => false

theorem exists_of_breaks {r : Except Fault Answer} (h : breaks r) :
    ∃ answer, r = .ok answer ∧ ¬ answer.filled.Kept := by
  unfold breaks at h
  split at h
  · exact ⟨_, rfl, by simpa using h⟩
  · cases h

/-- A user name of 32 bytes, and a port of eight. -/
theorem paraseInvite_breaks :
    (∃ answer,
      paraseInvite 128 (videoInvite "34020000002000000001340200000020" "10.0.0.2:700/5a12") =
      .ok answer ∧ ¬ answer.filled.Kept) ∧
    ∃ answer, paraseInvite 128 (videoInvite "34020000002000000001" "10.0.0.2:00000700/5a12") =
      .ok answer ∧ ¬ answer.filled.Kept := by
  constructor
  · exact exists_of_breaks (by decide +kernel)
  · exact exists_of_breaks (by decide +kernel)

end GbStream.Invite
