import GbStream.Invite.Fields
import GbStream.Server.State

/-!
# The body of the answer to an `INVITE`

`udp_recv_cb` answers an `INVITE` with a description of the stream.  Whatever the call is, the
parser of the program reads from it the values that it was made of, and for a new call these are
those of the invitation.
-/

namespace GbStream.Call.SipNode

open Support.CString

/-- The string that `n.cSipDevSn` is read as. -/
def sipDevSn (n : SipNode) : List UInt8 :=
  n.cSipDevSn.string (n.cDevId.bytes ++ n.cCallId.bytes ++ n.behindCallId)

/-- The string that `n.cPushIp` is read as. -/
def pushIp (n : SipNode) : List UInt8 :=
  n.cPushIp.string (int n.iPushPort ++ int n.iStreamType ++ n.cStreamSourceIp.bytes ++
    int n.iStreamSourcePort ++ int n.iSipNodeHashValue ++ int n.iUdpSendStreamSockFd ++
    int n.iUdpSendStreamPort ++ int n.iUdpRtcpSockFd ++ int n.iUdpRtcpListenPort)

theorem length_sipDevSn (n : SipNode) : n.sipDevSn.length ≤ 260 := by
  refine (List.takeWhile_sublist _).length_le.trans (Nat.le_of_eq ?_)
  simp [behindCallId, CharArray.length_eq, int, Support.Bytes.le32]

theorem length_pushIp (n : SipNode) : n.pushIp.length ≤ 64 := by
  refine (List.takeWhile_sublist _).length_le.trans (Nat.le_of_eq ?_)
  simp [CharArray.length_eq, int, Support.Bytes.le32]

end GbStream.Call.SipNode

namespace GbStream.Invite

open Support.CString Sdp Call
open GbStream.Stream (decimal)

/-! ## Decimal numbers -/

/-- `%u` -/
def unsignedDecimal (n : UInt32) : List UInt8 :=
  (toString n.toNat).toList.map fun c => UInt8.ofNat c.toNat

def digitsOf (k : Nat) : List UInt8 := (Nat.toDigits 10 k).map fun c => UInt8.ofNat c.toNat

variable {k : Nat} {c : UInt8}

theorem unsignedDecimal_eq (n : UInt32) : unsignedDecimal n = digitsOf n.toNat := by
  rw [unsignedDecimal, Nat.toString_eq_repr, Nat.toList_repr, digitsOf]

theorem decimal_eq (n : Int32) :
    decimal n =
      if 0 ≤ n.toInt then digitsOf n.toInt.toNat else 0x2d :: digitsOf (-n.toInt).toNat := by
  rw [decimal, Int.toString_eq_repr, Int.repr_eq_if]
  split
  · rw [Nat.toList_repr, digitsOf]
  · rw [String.toList_append, Nat.toList_repr, digitsOf]
    rfl

theorem toNat_digit {c : Char} (h : c ∈ Nat.toDigits 10 k) :
    (UInt8.ofNat c.toNat).toNat = c.toNat ∧ 48 ≤ c.toNat ∧ c.toNat ≤ 57 := by
  have hdigit := Nat.isDigit_of_mem_toDigits (by decide) (Nat.le_refl 10) h
  simp only [Char.isDigit, Bool.and_eq_true, decide_eq_true_eq] at hdigit
  have hlo : 48 ≤ c.toNat := UInt32.le_iff_toNat_le.mp hdigit.1
  have hhi : c.toNat ≤ 57 := UInt32.le_iff_toNat_le.mp hdigit.2
  refine ⟨?_, hlo, hhi⟩
  rw [UInt8.toNat_ofNat']
  omega

theorem digitsOf_mem (h : c ∈ digitsOf k) : 48 ≤ c.toNat ∧ c.toNat ≤ 57 := by
  obtain ⟨d, hd, rfl⟩ := List.mem_map.mp h
  obtain ⟨hvalue, hlo, hhi⟩ := toNat_digit hd
  rw [hvalue]
  exact ⟨hlo, hhi⟩

theorem digitsOf_ne_nil : digitsOf k ≠ [] := by
  rw [digitsOf, Ne, List.map_eq_nil_iff]
  exact Nat.toDigits_ne_nil

theorem length_digitsOf (h : k < 10 ^ 10) : (digitsOf k).length ≤ 10 := by
  rw [digitsOf, List.length_map]
  exact (Nat.length_toDigits_le_iff (by decide) (by decide)).mpr h

theorem digits_digitsOf (k : Nat) : digits (digitsOf k) = k := by
  have hall : ∀ c ∈ digitsOf k, decide (0x30 ≤ c ∧ c ≤ 0x39) = true := by
    intro c hc
    obtain ⟨hlo, hhi⟩ := digitsOf_mem hc
    exact decide_eq_true ⟨UInt8.le_iff_toNat_le.mpr hlo, UInt8.le_iff_toNat_le.mpr hhi⟩
  calc digits (digitsOf k)
      = (digitsOf k).foldl (fun n c => n * 10 + (c.toNat - 0x30)) 0 := by
        rw [digits, List.takeWhile_eq_self_iff.mpr hall]
    _ = (Nat.toDigits 10 k).foldl (fun n c => n * 10 + ((UInt8.ofNat c.toNat).toNat - 0x30)) 0 := by
        rw [digitsOf, List.foldl_map]
    _ = (Nat.toDigits 10 k).foldl (fun n c => 10 * n + (c.toNat - '0'.toNat)) 0 := by
        apply List.foldl_ext
        intro n c hc
        rw [(toNat_digit hc).1, Nat.mul_comm]
        rfl
    _ = k := by rw [← Nat.ofDigitChars_eq_foldl, Nat.ofDigitChars_ten_toDigits]

theorem noNul_word {w : List UInt8} (h : Word w) : 0 ∉ w := fun hmem => (h.mem 0 hmem).1 rfl

theorem word_of_printable {w : List UInt8} (hne : w ≠ []) (hw : ∀ c ∈ w, 45 ≤ c.toNat) :
    Word w := by
  refine ⟨hne, List.all_eq_true.mpr fun c hc => decide_eq_true ?_⟩
  have hne' : ∀ x : UInt8, x.toNat < 45 → c ≠ x := by
    rintro x hx rfl
    exact absurd (hw c hc) (Nat.not_le.mpr hx)
  simp only [blankEol, List.mem_cons, List.not_mem_nil, or_false, not_or]
  exact ⟨hne' 0 (by decide), hne' _ (by decide), hne' _ (by decide), hne' _ (by decide),
    hne' _ (by decide)⟩

theorem word_digitsOf (k : Nat) : Word (digitsOf k) :=
  word_of_printable digitsOf_ne_nil fun _ hc => Nat.le_trans (by decide) (digitsOf_mem hc).1

theorem word_unsignedDecimal (n : UInt32) : Word (unsignedDecimal n) := by
  rw [unsignedDecimal_eq]
  exact word_digitsOf _

theorem decimal_mem {n : Int32} (h : c ∈ decimal n) : c = 0x2d ∨ 48 ≤ c.toNat := by
  rw [decimal_eq] at h
  split at h
  · exact .inr (digitsOf_mem h).1
  · rcases List.mem_cons.mp h with hsign | hc
    · exact .inl hsign
    · exact .inr (digitsOf_mem hc).1

theorem decimal_ne_nil (n : Int32) : decimal n ≠ [] := by
  rw [decimal_eq]
  split
  · exact digitsOf_ne_nil
  · exact List.cons_ne_nil _ _

theorem word_decimal (n : Int32) : Word (decimal n) := by
  apply word_of_printable (decimal_ne_nil n)
  intro c hc
  rcases decimal_mem hc with rfl | hdigit
  · decide
  · exact Nat.le_trans (by decide) hdigit

theorem length_decimal (n : Int32) : (decimal n).length ≤ 11 := by
  have hlo := n.le_toInt
  have hhi := n.toInt_lt
  rw [decimal_eq]
  split
  · exact Nat.le_succ_of_le (length_digitsOf (by omega))
  · exact Nat.succ_le_succ (length_digitsOf (by omega))

theorem atoi_digitsOf (k : Nat) :
    atoi (digitsOf k) = Int32.ofInt (min (2 ^ 63 - 1) (k : Int)) := by
  have hdigits := digits_digitsOf k
  have hmem : ∀ c ∈ digitsOf k, 48 ≤ c.toNat := fun c hc => (digitsOf_mem hc).1
  generalize digitsOf k = w at hdigits hmem
  cases w with
  | nil =>
      rw [← hdigits]
      rfl
  | cons c w =>
      have hc := hmem c (List.mem_cons_self ..)
      have hdrop : (c :: w).dropWhile (fun c => c = 0x20 ∨ 0x09 ≤ c ∧ c ≤ 0x0d) = c :: w := by
        apply List.dropWhile_cons_of_neg
        rw [decide_eq_true_iff]
        rintro (rfl | ⟨-, hle⟩)
        · exact absurd hc (by decide)
        · have hcr : c.toNat ≤ 13 := UInt8.le_iff_toNat_le.mp hle
          omega
      rw [atoi, hdrop]
      split
      · next heq =>
          obtain ⟨rfl, -⟩ := List.cons.inj heq
          exact absurd hc (by decide)
      · next heq =>
          obtain ⟨rfl, -⟩ := List.cons.inj heq
          exact absurd hc (by decide)
      · rw [hdigits]

theorem atoi_decimal (n : Int32) : atoi (decimal n) = n := by
  have hlo := n.le_toInt
  have hhi := n.toInt_lt
  rw [decimal_eq]
  split
  · have hmin : min (2 ^ 63 - 1) (n.toInt.toNat : Int) = n.toInt := by omega
    rw [atoi_digitsOf, hmin, Int32.ofInt_toInt]
  · have hmax : max (-2 ^ 63) (-((-n.toInt).toNat : Int)) = n.toInt := by omega
    have hminus : ∀ w, atoi (0x2d :: w) = Int32.ofInt (max (-2 ^ 63) (-(digits w : Int))) :=
      fun _ => rfl
    rw [hminus, digits_digitsOf, hmax, Int32.ofInt_toInt]

theorem atoi_unsignedDecimal (n : UInt32) : (atoi (unsignedDecimal n)).toUInt32 = n := by
  have hlt := n.toNat_lt
  have hmin : min (2 ^ 63 - 1) (n.toNat : Int) = n.toNat := by omega
  rw [unsignedDecimal_eq, atoi_digitsOf, hmin, Int32.ofInt_eq_ofNat, Int32.toUInt32_ofNat',
    UInt32.ofNat_toNat]

/-! ## The body -/

/-- What `snprintf` is to write. -/
def responseText (cLocalIp : List UInt8) (n : SipNode) : List UInt8 :=
  ascii "v=0\r\no=" ++ n.sipDevSn ++ ascii " 0 0 IN IP4 " ++ n.pushIp ++
    ascii "\r\ns=Play\r\nc=IN IP4 " ++ cLocalIp ++ ascii "\r\nt=0 0\r\nm=video " ++
    decimal n.iUdpSendStreamPort ++ ascii " RTP/AVP 96\r\na=streamMode:" ++
    decimal n.iStreamType ++ ascii "\r\na=sendonly\r\na=rtpmap:96 PS/90000\r\ny=" ++
    unsignedDecimal n.u32Ssrc ++ ascii "\r\n\r\n"

/-- The string in `cResponseBody`, where `snprintf` cuts it. -/
def responseBody (cLocalIp : List UInt8) (n : SipNode) : List UInt8 :=
  (responseText cLocalIp n).take 4095

def responseLines (cLocalIp : List UInt8) (n : SipNode) : List Line :=
  [.version (ascii "0"),
    .origin n.sipDevSn (ascii "0") (ascii "0") (ascii "IN") (ascii "IP4") n.pushIp,
    .name (ascii "Play"), .connection (ascii "IN") (ascii "IP4") cLocalIp,
    .timing (ascii "0") (ascii "0"),
    .media ⟨ascii "video", decimal n.iUdpSendStreamPort, ascii "RTP/AVP", [ascii "96"]⟩,
    .attribute (ascii "streamMode") (some (decimal n.iStreamType)),
    .attribute (ascii "sendonly") none, .attribute (ascii "rtpmap") (some (ascii "96 PS/90000")),
    .y (unsignedDecimal n.u32Ssrc)]

variable {cLocalIp : List UInt8} {n : SipNode}

theorem responseText_eq :
    responseText cLocalIp n = render (responseLines cLocalIp n) ++ [cr, lf] := by
  simp only [responseText, responseLines, render, List.flatMap_cons, List.flatMap_nil, Line.render,
    Line.letter, Line.body, spaced, withColon, List.append_assoc, List.cons_append,
    List.nil_append]
  rfl

theorem responseBody_eq (hlen : cLocalIp.length ≤ 15) :
    responseBody cLocalIp n = render (responseLines cLocalIp n) ++ [cr, lf] := by
  rw [responseBody, List.take_of_length_le, responseText_eq]
  have hsn := n.length_sipDevSn
  have hip := n.length_pushIp
  have hport := length_decimal n.iUdpSendStreamPort
  have htype := length_decimal n.iStreamType
  have hssrc : (unsignedDecimal n.u32Ssrc).length ≤ 10 := by
    rw [unsignedDecimal_eq]
    exact length_digitsOf (n.u32Ssrc.toNat_lt.trans (by decide))
  simp only [responseText, ascii, String.reduceToList, List.map_cons, List.map_nil,
    List.cons_append, List.nil_append, List.length_append, List.length_cons, List.length_nil]
  omega

theorem responseLines_wellFormed (hsn : Word n.sipDevSn) (hip : Word n.pushIp)
    (hlocal : Word cLocalIp) : ∀ line ∈ responseLines cLocalIp n, line.WellFormed := by
  have hport := word_decimal n.iUdpSendStreamPort
  have htype := word_decimal n.iStreamType
  have hssrc := word_unsignedDecimal n.u32Ssrc
  have hzero : Word (ascii "0") := by decide
  have hin : Word (ascii "IN") := by decide
  have hip4 : Word (ascii "IP4") := by decide
  have hvideo : Word (ascii "video") := by decide
  have hproto : Word (ascii "RTP/AVP") := by decide
  have hformat : Word (ascii "96") := by decide
  have hmode : Name (ascii "streamMode") := by decide
  simp only [responseLines, List.forall_mem_cons, List.not_mem_nil, false_implies,
    implies_true, and_true, Line.WellFormed]
  refine ⟨by decide, ⟨hsn, hzero, hzero, hin, hip4, hip⟩, by decide, ⟨hin, hip4, hlocal⟩,
    ⟨hzero, hzero⟩, ⟨⟨hvideo, hport, hproto, hformat⟩, by decide⟩, ⟨hmode, htype.value⟩, by decide,
    by decide, hssrc.value⟩

theorem noNul_responseText (hsn : Word n.sipDevSn) (hip : Word n.pushIp)
    (hlocal : Word cLocalIp) : 0 ∉ responseText cLocalIp n := by
  have hport := noNul_word (word_decimal n.iUdpSendStreamPort)
  have htype := noNul_word (word_decimal n.iStreamType)
  have hssrc := noNul_word (word_unsignedDecimal n.u32Ssrc)
  simp only [responseText, List.mem_append, noNul_word hsn, noNul_word hip, noNul_word hlocal,
    hport, htype, hssrc, or_false]
  decide

/-- The last line is the one that the runs of the server record. -/
theorem yLine_suffix (hlen : cLocalIp.length ≤ 15) :
    Server.yLine n <:+ responseBody cLocalIp n := by
  have hy : Server.yLine n = ascii "y=" ++ (unsignedDecimal n.u32Ssrc ++ ascii "\r\n\r\n") := by
    rw [Server.yLine, List.append_assoc]
    rfl
  have hsplit : ascii "\r\na=sendonly\r\na=rtpmap:96 PS/90000\r\ny=" =
      ascii "\r\na=sendonly\r\na=rtpmap:96 PS/90000\r\n" ++ ascii "y=" := rfl
  rw [responseBody_eq hlen, ← responseText_eq, responseText, hsplit, List.append_assoc,
    ← List.append_assoc _ _ (ascii "y="), List.append_assoc _ (ascii "y="), ← hy]
  exact List.suffix_append _ _

/-! ## Reading the body -/

theorem sdpMediaPort_decimal {sdp : Session} {i : Nat} {port : Int32}
    (h : ((sdpGetMedia sdp i).bind Media.port).map sdp.string = some (decimal port)) :
    sdpMediaPort sdp i = .ok (some (port, 1)) := by
  obtain ⟨p, hp, hstring⟩ := Option.map_eq_some_iff.mp h
  obtain ⟨m, hm, hport⟩ := Option.bind_eq_some_iff.mp hp
  have hslash : (decimal port).dropWhile (· ≠ slash) = [] := by
    rw [List.dropWhile_eq_nil_iff]
    intro c hc
    rw [decide_eq_true_iff]
    rintro rfl
    rcases decimal_mem hc with hsign | hdigit
    · exact absurd hsign (by decide)
    · exact absurd hdigit (by decide)
  have hone : atoi (ascii "1") = 1 := by decide
  rw [sdpMediaPort, hm]
  dsimp only
  rw [hport]
  simp only [deref, bind, Except.bind, hstring, hslash, if_true, atoi_decimal, hone]

theorem not_opensLine_crlf : ¬ OpensLine [cr, lf] := by
  rintro ⟨hc⟩
  exact hc (by decide)

theorem responseBody_read (hsn : Word n.sipDevSn) (hip : Word n.pushIp) (hlocal : Word cLocalIp)
    (hlen : cLocalIp.length ≤ 15) (mem : List UInt8) (fuel : Nat) (hfuel : 12 ≤ fuel) :
    ∃ sdp, sdpParse fuel (responseBody cLocalIp n ++ 0 :: mem) = .ok sdp ∧
      (sdpOriginGet sdp).map (fun o => (sdp.string o.1, sdp.string o.2.2.2.2.2)) =
        some (n.sipDevSn, n.pushIp) ∧
      (sdpConnectionGet sdp).map (fun c => sdp.string c.2.2) = some cLocalIp ∧
      sdpMediaCount sdp = 1 ∧ (sdpMediaType sdp 0).map sdp.string = some (ascii "video") ∧
      sdpMediaPort sdp 0 = .ok (some (n.iUdpSendStreamPort, 1)) ∧
      (sdpMediaAttributeFind sdp 0 (ascii "streamMode")).map (fun v => atoi (sdp.string v)) =
        some n.iStreamType ∧
      (sdpYGet sdp).map (fun y => (atoi (sdp.string y)).toUInt32) = some n.u32Ssrc := by
  have hs : stringAt (responseBody cLocalIp n ++ 0 :: mem) 0 =
      render (responseLines cLocalIp n) ++ [cr, lf] := by
    have hnul := noNul_responseText hsn hip hlocal
    rw [responseText_eq, ← responseBody_eq hlen] at hnul
    rw [stringAt_zero_append hnul, stringAt_zero_cons, List.append_nil, responseBody_eq hlen]
  obtain ⟨sdp, hparse, hread⟩ := sdpParse_front not_opensLine_crlf
    (responseLines_wellFormed hsn hip hlocal) (Nat.zero_le 1) hs hfuel
  have horigin := congrArg (Option.map fun o => (o.1, o.2.2.2.2.2)) hread.originGet
  have hconnection := congrArg (Option.map fun c => c.2.2) hread.connectionGet
  have hmode := congrArg (Option.map atoi) (hread.mediaAttributeFind 0 (ascii "streamMode"))
  have hy := congrArg (Option.map fun y => (atoi y).toUInt32) hread.yGet
  rw [Option.map_map] at horigin hconnection hmode hy
  refine ⟨sdp, hparse, horigin, hconnection, hread.mediaCount, hread.mediaType 0,
    sdpMediaPort_decimal (hread.mediaPort 0), ?_, ?_⟩
  · exact hmode.trans (congrArg some (atoi_decimal n.iStreamType))
  · exact hy.trans (congrArg some (atoi_unsignedDecimal n.u32Ssrc))

/-! ## The answer to a new call -/

theorem sections_subset (lines : List Line) : (sections lines).1 ⊆ lines := by
  induction lines with
  | nil => exact List.Subset.refl []
  | cons line lines ih =>
      cases line with
      | media m => exact List.nil_subset _
      | _ => exact List.cons_subset_cons _ ih

theorem word_of_origin {lines : List Line} (hwf : ∀ line ∈ lines, line.WellFormed)
    {userName : List UInt8} (h : (describe lines).origin.map Prod.fst = some userName) :
    Word userName := by
  obtain ⟨o, ho, rfl⟩ := Option.map_eq_some_iff.mp h
  obtain ⟨line, hline, horigin⟩ := List.mem_filterMap.mp (List.mem_of_getLast? ho)
  have hword := hwf line hline
  cases line with
  | origin a b c e f g =>
      cases horigin
      exact hword a (List.mem_cons_self ..)
  | _ => cases horigin

theorem word_of_connection {lines : List Line} (hwf : ∀ line ∈ lines, line.WellFormed)
    {address : List UInt8}
    (h : ((describe lines).session.connections.getLast?.map fun c => c.2.2) = some address) :
    Word address := by
  obtain ⟨c, hc, rfl⟩ := Option.map_eq_some_iff.mp h
  obtain ⟨line, hline, hconnection⟩ := List.mem_filterMap.mp (List.mem_of_getLast? hc)
  have hword := hwf line (sections_subset lines hline)
  cases line with
  | connection a b c =>
      cases hconnection
      exact hword c (by simp)
  | _ => cases hconnection

section NewCall

variable {sdp : Session} {pSipMsg : OsipMessage} {body : List UInt8} {fuel : Nat}

theorem paraseInvite_success (hbody : pSipMsg.body = some body)
    (hparse : sdpParse fuel body = .ok sdp) (horigin : (sdpOriginGet sdp).isSome)
    (hconnection : (sdpConnectionGet sdp).isSome)
    (hcount : ¬ Support.Bytes.toS32 (sdpMediaCount sdp) < 0) :
    ∃ args filled, paraseInvite fuel pSipMsg = .ok (.success filled) ∧
      SessionArgs sdp pSipMsg.number args ∧ filled.args.cSsrc = args.cSsrc ∧
      filled.args.cDevSn = args.cDevSn ∧ filled.args.cPushIp = args.cPushIp ∧
      (filled.overrun = false ↔ ∀ i < (Support.Bytes.toS32 (sdpMediaCount sdp)).toNat,
        ∀ value ∈ smsOf sdp i, SmsFits value) := by
  obtain ⟨lines, haccepts⟩ := sdpParse_ok_accepts hparse
  obtain ⟨fuel', sdp', hparse', hparts⟩ := sdpParse_parts haccepts
  obtain rfl := sdpParse_eq hparse hparse'
  obtain ⟨answer, hanswer⟩ := (paraseParsed_ok_iff hparts pSipMsg.number).mpr
    (.inr ⟨hparts.origin.mp horigin, hparts.connection.mp hconnection⟩)
  have hinvite := paraseInvite_eq_ok.mpr ⟨body, sdp', hbody, hparse, hanswer⟩
  unfold paraseParsed at hanswer
  dsimp only at hanswer
  rw [if_neg hcount] at hanswer
  obtain ⟨args, hargs, hrest⟩ := bind_eq_ok.mp hanswer
  obtain ⟨filled, hfilled, hdone⟩ := bind_eq_ok.mp hrest
  obtain rfl := Except.ok.inj hdone
  have hround := mediaRounds_round _ hfilled
  exact ⟨args, filled, hinvite, paraseSession_args hargs, hround.cSsrc, hround.cDevSn,
    hround.cPushIp, filled_overrun_iff hfilled⟩

theorem insert_opened {h : SipHashing} {a : SipDevArgs} {sockets : Sockets} {t t' : SipTable}
    {n : SipEntry} (hinsert : insertNodeToSipHashTable h a sockets t = (t', n, some sockets)) :
    n = newSipNode t.next (h.uHashValue a.callId) a sockets := by
  unfold insertNodeToSipHashTable at hinsert
  split at hinsert
  · cases hinsert
  · cases hinsert
    rfl

theorem newSipNode_reads {a : SipDevArgs} {userName address y : List UInt8}
    (hcDevSn : a.cDevSn = strncpy userName 32) (hcPushIp : a.cPushIp = strncpy address 16)
    (hcSsrc : a.cSsrc = strncpy y 16) (huserName : 0 ∉ userName ∧ userName.length < 32)
    (haddress : 0 ∉ address ∧ address.length < 16) (hy : 0 ∉ y ∧ y.length < 16) (id : Nat)
    (uHashValue : UInt32) (sockets : Sockets) :
    (newSipNode id uHashValue a sockets).sipDevSn = userName ∧
      (newSipNode id uHashValue a sockets).pushIp = address ∧
      (newSipNode id uHashValue a sockets).u32Ssrc = (atoi y).toUInt32 := by
  unfold SipNode.sipDevSn SipNode.pushIp newSipNode
  dsimp only
  rw [hcDevSn, hcPushIp, hcSsrc, string_strncpy huserName.1 huserName.2,
    string_strncpy huserName.1 huserName.2, string_strncpy haddress.1 haddress.2,
    string_strncpy haddress.1 haddress.2, string_strncpy hy.1 hy.2]
  exact ⟨rfl, rfl, rfl⟩

/-- **The answer says what the invitation says.**  An `INVITE` whose tokens fit their fields is read
without a byte behind them, and a call that is new is answered with its device number, its address
and its SSRC, and with the port that has been opened for it. -/
theorem invite_answered (lines : List Line) (hwf : ∀ line ∈ lines, line.WellFormed)
    (huri : (lines.filterMap Line.uri?).length ≤ 1) (hbody : pSipMsg.body = some body)
    (hs : stringAt body 0 = render lines) {userName address y : List UInt8}
    (horigin : (describe lines).origin.map Prod.fst = some userName)
    (hconnection :
      ((describe lines).session.connections.getLast?.map fun c => c.2.2) = some address)
    (hy : (describe lines).y = some y) (huserName : userName.length < 32)
    (haddress : address.length < 16) (hylen : y.length < 16)
    (hsms : ∀ x ∈ (describe lines).medias, x.1.media = ascii "video" →
      ∀ value ∈ x.2.attributes.lookup (ascii "sms"), SmsFits value)
    (hmedias : (describe lines).medias.length < 2147483648) (hlocal : Word cLocalIp)
    (hlen : cLocalIp.length ≤ 15) (fuel : Nat) (hfuel : lines.length + 2 ≤ fuel) :
    ∃ filled, paraseInvite fuel pSipMsg = .ok (.success filled) ∧ filled.overrun = false ∧
      ∀ (h : SipHashing) (t t' : SipTable) (sockets : Sockets) (n : SipEntry),
        insertNodeToSipHashTable h filled.args sockets t = (t', n, some sockets) →
        ∀ rounds, 12 ≤ rounds →
          ∃ sdp, sdpParse rounds (responseBody cLocalIp n.toSipNode ++ [0]) = .ok sdp ∧
            (sdpOriginGet sdp).map (fun o => (sdp.string o.1, sdp.string o.2.2.2.2.2)) =
              some (userName, address) ∧
            (sdpConnectionGet sdp).map (fun c => sdp.string c.2.2) = some cLocalIp ∧
            sdpMediaPort sdp 0 = .ok (some (sockets.iUdpSendStreamPort, 1)) ∧
            (sdpYGet sdp).map (fun v => (atoi (sdp.string v)).toUInt32) =
              some (atoi y).toUInt32 := by
  rw [← List.append_nil (render lines)] at hs
  obtain ⟨sdp, hparse, hread⟩ := sdpParse_front not_opensLine_nil hwf huri hs hfuel
  -- what the accessors return for the invitation
  have horiginGet : (sdpOriginGet sdp).map (fun o => sdp.string o.1) = some userName := by
    rw [← horigin, ← hread.originGet, Option.map_map]
    rfl
  have hconnectionGet : (sdpConnectionGet sdp).map (fun c => sdp.string c.2.2) = some address := by
    rw [← hconnection, ← hread.connectionGet, Option.map_map]
    rfl
  have hyGet : (sdpYGet sdp).map sdp.string = some y := hread.yGet.trans hy
  have hcount : ¬ Support.Bytes.toS32 (sdpMediaCount sdp) < 0 := by
    rw [hread.mediaCount, Support.Bytes.toS32_of_bounds (by omega) (by omega)]
    omega
  obtain ⟨args, filled, hinvite, hargs, hcSsrc, hcDevSn, hcPushIp, hoverrun⟩ :=
    paraseInvite_success hbody hparse
      (Option.isSome_map.symm.trans (congrArg Option.isSome horiginGet))
      (Option.isSome_map.symm.trans (congrArg Option.isSome hconnectionGet)) hcount
  rw [hargs.cSsrc, hyGet, Option.getD_some] at hcSsrc
  rw [hargs.cDevSn, horiginGet, Option.getD_some] at hcDevSn
  rw [hargs.cPushIp, hconnectionGet, Option.getD_some] at hcPushIp
  have hinside : filled.overrun = false := hoverrun.mpr fun i _ =>
    (smsFits_iff_of_understood hread i).mpr fun x hx => hsms x (List.mem_of_getElem? hx)
  refine ⟨filled, hinvite, hinside, fun h t t' sockets n hinsert rounds hrounds => ?_⟩
  have huserWord := word_of_origin hwf horigin
  have haddressWord := word_of_connection hwf hconnection
  have hyNul : 0 ∉ y := noNul_string id y hyGet
  obtain ⟨hsn, hip, hssrc⟩ := newSipNode_reads hcDevSn hcPushIp hcSsrc
    ⟨noNul_word huserWord, huserName⟩ ⟨noNul_word haddressWord, haddress⟩ ⟨hyNul, hylen⟩ t.next
    (h.uHashValue filled.args.callId) sockets
  rw [← insert_opened hinsert] at hsn hip hssrc
  have hport : n.iUdpSendStreamPort = sockets.iUdpSendStreamPort := by
    rw [insert_opened hinsert, newSipNode]
  obtain ⟨answer, hanswer, ho, hc, -, -, hm, -, hv⟩ := responseBody_read (hsn ▸ huserWord)
    (hip ▸ haddressWord) hlocal hlen [] rounds hrounds
  rw [hsn, hip] at ho
  rw [hport] at hm
  rw [hssrc] at hv
  exact ⟨answer, hanswer, ho, hc, hm, hv⟩

/-- The description of a live stream, with its source. -/
def sourceLines : List Line :=
  playLines ++ [.attribute (ascii "sms") (some (ascii "10.0.0.2:700/5a12"))]

theorem invite_answered_play :
    ∃ filled, paraseInvite 12 { body := some (render sourceLines ++ [0]), number := none } =
        .ok (.success filled) ∧ filled.overrun = false ∧
      ∀ (h : SipHashing) (t t' : SipTable) (sockets : Sockets) (n : SipEntry),
        insertNodeToSipHashTable h filled.args sockets t = (t', n, some sockets) →
        ∀ rounds, 12 ≤ rounds →
          ∃ sdp, sdpParse rounds (responseBody (ascii "192.168.1.9") n.toSipNode ++ [0]) =
              .ok sdp ∧
            (sdpOriginGet sdp).map (fun o => (sdp.string o.1, sdp.string o.2.2.2.2.2)) =
              some (ascii "34020000001320000001", ascii "192.168.1.2") ∧
            (sdpConnectionGet sdp).map (fun c => sdp.string c.2.2) = some (ascii "192.168.1.9") ∧
            sdpMediaPort sdp 0 = .ok (some (sockets.iUdpSendStreamPort, 1)) ∧
            (sdpYGet sdp).map (fun v => (atoi (sdp.string v)).toUInt32) =
              some (atoi (ascii "0100000001")).toUInt32 :=
  invite_answered sourceLines (by decide) (by decide) rfl (by decide +kernel) rfl rfl rfl
    (by decide) (by decide) (by decide) (by decide +kernel) (by decide) (by decide) (by decide) 12
    (by decide)

end NewCall

end GbStream.Invite
