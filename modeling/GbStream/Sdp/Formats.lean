import GbStream.Call.SipTable
import GbStream.Sdp.Slots

/-!
# The formats of a media

`m=` reads the words behind the protocol into one variable and appends the last of them only:
an `m=` line of less than sixteen words has no format in the list, any other has one.  A blank
behind the sixteenth word ends the text for the scanner.
-/

namespace GbStream.Sdp

open Support Support.CString

variable {t t' : Text} {sdp sdp' : Session} {ctx : Context} {xs body : List UInt8}
  {lines : List (UInt8 × List UInt8)} {line : UInt8 × List UInt8} {kind : LineKind}

/-! ## The accessor -/

/-- `sdp_media_format_value` of a string. -/
def sdpMediaFormatValue (format : List UInt8) : Int32 :=
  let c := format.headD 0
  if c = byte 'a' then if format.tail.headD 0 = byte 'u' then 1001 else 1004
  else if c = byte 'v' then 1002
  else if c = byte 't' then 1003
  else if c = byte 'm' then 1005
  else Call.atoi format

def formatAt (sdp : Session) (m : Media) (i : Nat) : Except Stop (List UInt8) :=
  match (m.fmt.get? i).join with
  | none => .error .outOfBounds
  | some ptr => .ok (stringAt sdp.text.raw ptr)

/-- `sdp_media_formats`: the number of formats and the values of the first `count` of them, or
`-1`. -/
def sdpMediaFormats (sdp : Session) (media count : Nat) : Except Stop (Option (Int × List Int32)) :=
  match sdpGetMedia sdp media with
  | none => .ok none
  | some m => do
      let formats ← (List.range (min count m.fmt.count)).mapM (formatAt sdp m)
      .ok (some (Bytes.toS32 m.fmt.count, formats.map sdpMediaFormatValue))

/-! ## Words -/

theorem length_afterWord_lt (h : ¬ wordAt xs = []) : (afterWord xs).length < xs.length := by
  have hlength := length_afterWord xs
  have hpos : 0 < (wordAt xs).length := List.length_pos_iff.mpr h
  omega

def wordsIn (xs : List UInt8) : List (List UInt8) :=
  if _h : wordAt xs = [] then [] else wordAt xs :: wordsIn (afterWord xs)
termination_by xs.length
decreasing_by exact length_afterWord_lt _h

/-- The formats that an `m=` line names. -/
def formats (body : List UInt8) : List (List UInt8) := (wordsIn body).drop 3

theorem wordAt_afterWord (h : wordAt xs = []) : wordAt (afterWord xs) = [] := by
  have hsplit := upTo_append_behind blankEol (skipBlanks xs)
  rw [show upTo blankEol (skipBlanks xs) = [] from h, List.nil_append] at hsplit
  have hskip : skipBlanks (skipBlanks xs) = skipBlanks xs := by
    unfold skipBlanks
    exact List.dropWhile_idempotent _ _
  rw [afterWord, hsplit, wordAt, hskip]
  exact h

theorem wordsIn_of_nil (h : wordAt xs = []) : wordsIn xs = [] := by
  rw [wordsIn, dif_pos h]

theorem wordAt_afterWords (n : Nat) :
    ∀ xs : List UInt8, wordAt (afterWords n xs) = [] ↔ (wordsIn xs).length ≤ n := by
  induction n with
  | zero =>
      intro xs
      rw [afterWords, Nat.le_zero, List.length_eq_zero_iff, wordsIn]
      split
      · rename_i h
        exact iff_of_true h rfl
      · rename_i h
        exact iff_of_false h (List.cons_ne_nil _ _)
  | succ n ih =>
      intro xs
      rw [afterWords, ih]
      by_cases h : wordAt xs = []
      · rw [wordsIn_of_nil h, wordsIn_of_nil (wordAt_afterWord h)]
        exact iff_of_true (Nat.zero_le _) (Nat.zero_le _)
      · rw [wordsIn.eq_def xs, dif_neg h, List.length_cons, Nat.add_le_add_iff_right]

theorem dropWhile_dropWhile {p q : UInt8 → Bool} (h : ∀ c, q c = true → p c = true)
    (xs : List UInt8) : (xs.dropWhile q).dropWhile p = xs.dropWhile p := by
  induction xs with
  | nil => rfl
  | cons c xs ih =>
      by_cases hc : q c = true
      · rw [List.dropWhile_cons_of_pos hc, List.dropWhile_cons_of_pos (h c hc), ih]
      · rw [List.dropWhile_cons_of_neg hc]

theorem behind_eol_afterWords (n : Nat) :
    ∀ xs : List UInt8, behind eol (afterWords n xs) = behind eol xs := by
  have hword : ∀ xs : List UInt8, behind eol (afterWord xs) = behind eol xs := by
    intro xs
    unfold afterWord behind skipBlanks
    rw [dropWhile_dropWhile, dropWhile_dropWhile]
    · intro c hc
      rw [decide_eq_true_iff]
      rintro hmem
      simp only [Text.isBlank, decide_eq_true_eq] at hc
      rcases hc with rfl | rfl <;> exact absurd hmem (by decide)
    · intro c hc
      rw [decide_eq_true_iff] at hc ⊢
      exact fun hmem => hc (by simp only [eol, blankEol, List.mem_cons] at hmem ⊢; tauto)
  induction n with
  | zero => exact fun _ => rfl
  | succ n ih =>
      intro xs
      rw [afterWords, ih, hword]

theorem behind_eol_of_atEol (h : AtEol xs) : behind eol xs = xs := by
  cases h with
  | mk hc =>
      apply List.dropWhile_cons_of_neg
      simpa using hc

/-- With no blank behind the sixteenth word, `m=` leaves what follows its line. -/
theorem mediaRest_of_not_blank (h : ¬ AtBlank (afterWords 16 xs)) :
    mediaRest xs = behind eol xs := by
  rw [mediaRest, if_neg h, ← behind_eol_afterWords 16]
  rcases afterWord_cases (afterWords 15 xs) with hnil | heol | hblank
  · rw [show afterWords 16 xs = [] from hnil]
    rfl
  · exact (behind_eol_of_atEol heol).symm
  · exact absurd hblank h

/-! ## What `m=` keeps -/

theorem openMedia_scanned (h : At sdp.text xs) :
    ∃ media port proto fmt u, openMedia sdp = .ok (media, port, proto, fmt, u) ∧
      fmt.n = (wordAt (afterWords 15 xs)).length ∧ fmt.stop = u.offset ∧
      At u (afterWords 16 xs) := by
  obtain ⟨a, ta, ha, -, -, hsa⟩ := h.scanned.word
  obtain ⟨b, tb, hb, -, -, hsb⟩ := hsa.word
  obtain ⟨c, tc, hc, -, -, hsc⟩ := hsb.word
  obtain ⟨d, td, hd, hn, hstop, hsd⟩ := hsc.lastWord 12 c
  refine ⟨a, b, c, d, td, ?_, hn, hstop, hsd.rest⟩
  simp only [openMedia, ha, hb, hc, hd, ok_bind]

/-- The loop appends the word it begins with, or leaves it to be appended. -/
theorem formatLoop_keeps {fmt fmt' : Token} {fmts : Growable (Option Nat) 5} {fuel : Nat}
    (h : At t xs) (hstop : fmt.stop = t.offset) (hword : AtBlank xs → 0 < fmt.n)
    (hfuel : 2 ≤ fuel) (hloop : formatLoop fuel fmt t .empty = .ok (fmt', t', fmts)) :
    fmts.count + (if fmt'.n > 0 then 1 else 0) = if fmt.n > 0 then 1 else 0 := by
  by_cases hblank : AtBlank xs
  · obtain ⟨-, hrun⟩ := formatLoop_blank h hstop hblank hfuel .empty
    rw [hrun] at hloop
    cases hloop
    rw [if_pos (hword hblank), Growable.count_push, if_neg (Nat.lt_irrefl 0)]
    rfl
  · rw [formatLoop_end h hstop hblank (Nat.lt_of_lt_of_le Nat.two_pos hfuel)] at hloop
    cases hloop
    exact Nat.zero_add _

theorem closeMedia_keeps {media port proto fmt : Token} {fmts : Growable (Option Nat) 5}
    (hclose : closeMedia sdp media port proto fmt t fmts = .ok sdp') :
    ∃ text m, sdp' = { sdp with text, m := sdp.m.push m } ∧
      m.fmt.count = fmts.count + if fmt.n > 0 then 1 else 0 := by
  obtain ⟨u, -, hclose⟩ := bind_eq_ok.mp hclose
  obtain ⟨v, -, hclose⟩ := bind_eq_ok.mp hclose
  dsimp only at hclose
  split at hclose
  · rename_i hn
    obtain ⟨w, -, hclose⟩ := bind_eq_ok.mp hclose
    cases hclose
    rw [if_pos hn]
    exact ⟨_, _, rfl, Growable.count_push ..⟩
  · rename_i hn
    cases hclose
    rw [if_neg hn]
    exact ⟨_, _, rfl, rfl⟩

/-- How many formats the list of a media has, by the body of its line. -/
def FormatsOf (m : Media) (body : List UInt8) : Prop :=
  m.fmt.count = if wordAt (afterWords 15 body) = [] then 0 else 1

theorem parseMedia_formats {fuel : Nat} (h : At sdp.text body) (hfuel : 2 ≤ fuel)
    (hparse : parseMedia fuel sdp = .ok sdp') :
    ∃ text m, sdp' = { sdp with text, m := sdp.m.push m } ∧ FormatsOf m body := by
  obtain ⟨media, port, proto, fmt, u, hopen, hn, hstop, hat⟩ := openMedia_scanned h
  rw [parseMedia_eq, hopen, ok_bind] at hparse
  obtain ⟨⟨fmt', v, fmts⟩, hloop, hclose⟩ := bind_eq_ok.mp hparse
  obtain ⟨text, m, rfl, hcount⟩ := closeMedia_keeps hclose
  have hword : AtBlank (afterWords 16 body) → 0 < fmt.n := by
    intro hblank
    rw [hn, List.length_pos_iff]
    exact wordAt_ne_nil (afterWords 15 body) hblank
  refine ⟨text, m, rfl, ?_⟩
  rw [FormatsOf, hcount, formatLoop_keeps hat hstop hword hfuel hloop, hn]
  by_cases hnil : wordAt (afterWords 15 body) = []
  · rw [if_pos hnil, hnil]
    rfl
  · rw [if_neg hnil, if_pos (List.length_pos_iff.mpr hnil)]

/-! ## All lines -/

/-- What follows the equals sign of the `m=` lines. -/
def mediaBodies (lines : List (UInt8 × List UInt8)) : List (List UInt8) :=
  (lines.filter (·.1 = byte 'm')).map Prod.snd

theorem mediaBodies_concat (lines : List (UInt8 × List UInt8)) (line : UInt8 × List UInt8) :
    mediaBodies (lines ++ [line]) =
      mediaBodies lines ++ if line.1 = byte 'm' then [line.2] else [] := by
  unfold mediaBodies
  rw [List.filter_append, List.map_append, List.filter_singleton]
  by_cases h : line.1 = byte 'm'
  · simp [h]
  · simp [h]

theorem letter_media {c : UInt8} (h : (c, kind) ∈ lineKinds) : c = byte 'm' ↔ kind = .m := by
  have hall : ∀ line ∈ lineKinds, line.1 = byte 'm' ↔ line.2 = .m := by decide
  exact hall _ h

theorem onMedia_fmt (m : Media) (r : Recorded) : (r.onMedia m).fmt = m.fmt := by
  cases r <;> rfl

theorem Change.formats {bodies : List (List UInt8)} (h : Change sdp kind sdp') (hkind : kind ≠ .m)
    (hplaced : sdp.m.Placed FormatsOf bodies) : sdp'.m.Placed FormatsOf bodies := by
  cases h with
  | repeats | timezone => exact hplaced
  | media => exact absurd rfl hkind
  | plain text effect happly =>
      cases effect with
      | version | origin | name | y | uri | email | phone | timing =>
          cases happly
          exact hplaced
      | recorded r =>
          have hrecord : { sdp with text }.record r.onMedia r.onSession = .ok sdp' := happly
          rcases record_cases hrecord with ⟨hpos, m, hlast, rfl⟩ | ⟨-, rfl⟩
          · apply hplaced.setLast (a := m) (Nat.ne_of_gt hpos) (get?_of_lastMedia hlast)
            intro body hm
            rw [FormatsOf, onMedia_fmt]
            exact hm
          · cases r <;> exact hplaced

theorem BodyRead.formats (h : BodyRead sdp line.2 kind sdp') (hkind : (line.1, kind) ∈ lineKinds)
    (hplaced : sdp.m.Placed FormatsOf (mediaBodies lines)) :
    sdp'.m.Placed FormatsOf (mediaBodies (lines ++ [line])) := by
  have hletter := letter_media hkind
  rw [mediaBodies_concat]
  by_cases hmedia : kind = .m
  · subst hmedia
    obtain ⟨u, fuel, hat, hfuel, hbody⟩ := h
    obtain ⟨text, m, rfl, hformats⟩ := parseMedia_formats hat hfuel hbody
    rw [if_pos (hletter.mpr rfl)]
    exact hplaced.push hformats
  · rw [if_neg (fun heq => hmedia (hletter.mp heq)), List.append_nil]
    exact h.change.formats hmedia hplaced

/-- The media of the session that is returned, by the lines that were read. -/
theorem sdpParse_formats {s : List UInt8} (h : Accepts {} (stringAt s 0) lines) :
    ∃ fuel sdp, sdpParse fuel s = .ok sdp ∧ sdp.m.Placed FormatsOf (mediaBodies lines) := by
  have hstep : ∀ seen line kind sdp sdp', (line.1, kind) ∈ lineKinds →
      sdp.m.Placed FormatsOf (mediaBodies seen) → BodyRead sdp line.2 kind sdp' →
      sdp'.m.Placed FormatsOf (mediaBodies (seen ++ [line])) :=
    fun _ _ _ _ _ hkind hplaced hread => hread.formats hkind hplaced
  obtain ⟨sdp, hparse, hplaced⟩ := sdpParse_invariant
    (P := fun seen sdp => sdp.m.Placed FormatsOf (mediaBodies seen)) s (fun _ => .empty) hstep h
    _ (Nat.le_refl _)
  exact ⟨_, sdp, hparse, hplaced⟩

/-! ## Documents -/

/-- The lines of a text, each of which is accepted by itself; an `m=` line reaches to its end,
however many formats it names. -/
inductive Document : Context → List UInt8 → List (UInt8 × List UInt8) → Prop
  | done {ctx : Context} {xs : List UInt8} (h : ¬ OpensLine xs) : Document ctx xs []
  | line {ctx ctx' : Context} {xs rest : List UInt8} {line : UInt8 × List UInt8}
      {lines : List (UInt8 × List UInt8)} (hopens : OpensLine xs) (head : lineHead xs = .ok line)
      (hother : line.1 ≠ byte 'm') (hread : readLine ctx xs = .ok (ctx', rest))
      (h : Document ctx' rest lines) : Document ctx xs (line :: lines)
  | media {ctx : Context} {xs rest body : List UInt8} {lines : List (UInt8 × List UInt8)}
      (hopens : OpensLine xs) (head : lineHead xs = .ok (byte 'm', body))
      (hrest : lineEnd (behind eol body) = some rest) (h : Document ctx rest lines) :
      Document ctx xs ((byte 'm', body) :: lines)

theorem readLine_media (ctx : Context) {rest : List UInt8}
    (head : lineHead xs = .ok (byte 'm', body))
    (hrest : lineEnd (behind eol body) = some rest) :
    readLine ctx xs = .ok (ctx, if AtBlank (afterWords 16 body) then [] else rest) := by
  rw [readLine_of_head .m head rfl, readBody]
  by_cases hblank : AtBlank (afterWords 16 body)
  · rw [mediaRest, if_pos hblank, if_pos hblank]
    rfl
  · rw [mediaRest_of_not_blank hblank, hrest, if_neg hblank]
    rfl

/-- The parser reads the lines of a document up to the first `m=` line with a blank behind its
sixteenth word. -/
theorem Document.accepts (h : Document ctx xs lines) : ∃ n, Accepts ctx xs (lines.take n) := by
  induction h with
  | done hend => exact ⟨0, .done hend⟩
  | line hopens head _ hread _ ih =>
      obtain ⟨n, ih⟩ := ih
      exact ⟨n + 1, .line hopens head hread ih⟩
  | @media ctx xs rest body lines hopens head hrest _ ih =>
      have hread := readLine_media ctx head hrest
      by_cases hblank : AtBlank (afterWords 16 body)
      · rw [if_pos hblank] at hread
        exact ⟨1, .line hopens head hread (.done fun hopens => nomatch hopens)⟩
      · rw [if_neg hblank] at hread
        obtain ⟨n, ih⟩ := ih
        exact ⟨n + 1, .line hopens head hread ih⟩

/-- Without such a line the parser reads them all. -/
theorem Document.accepts_all (h : Document ctx xs lines)
    (hfew : ∀ body ∈ mediaBodies lines, ¬ AtBlank (afterWords 16 body)) :
    Accepts ctx xs lines := by
  induction h with
  | done hend => exact .done hend
  | @line ctx ctx' xs rest line lines hopens head hother hread _ ih =>
      apply Accepts.line hopens head hread
      apply ih
      intro body hbody
      apply hfew body
      rwa [mediaBodies, List.filter_cons_of_neg (by simpa using hother)]
  | @media ctx xs rest body lines hopens head hrest _ ih =>
      have hread := readLine_media ctx head hrest
      rw [mediaBodies, List.filter_cons_of_pos (by simp), List.map_cons, List.forall_mem_cons]
        at hfew
      rw [if_neg hfew.1] at hread
      exact .line hopens head hread (ih hfew.2)

/-! ## The formats of a document -/

theorem formats_eq_nil : formats body = [] ↔ wordAt (afterWords 3 body) = [] := by
  rw [formats, List.drop_eq_nil_iff, wordAt_afterWords]

/-- The format list of a media is the given one, and `sdp_media_formats` reports it. -/
structure FormatsKept (sdp : Session) (i : Nat) (fs : List (List UInt8)) : Prop where
  list : ∃ m, sdpGetMedia sdp i = some m ∧
    m.fmt.Shows (fun p w => p.map (stringAt sdp.text.raw) = some w) fs
  reported : sdpMediaFormats sdp i fs.length =
    .ok (some (Bytes.toS32 fs.length, fs.map sdpMediaFormatValue))

theorem FormatsKept.count {i : Nat} {fs : List (List UInt8)} (h : FormatsKept sdp i fs) :
    i < sdp.m.count ∧ ∃ m, sdp.m.get? i = some m ∧ m.fmt.count = fs.length := by
  obtain ⟨m, hm, hshows⟩ := h.list
  unfold sdpGetMedia at hm
  split at hm
  · cases hm
  · exact ⟨by omega, m, hm, hshows.count⟩

/-- When `sdp_parse` returns a session, the media of an `m=` line has the formats of the line,
and the parser has read all lines. -/
def KeepsFormats (s : List UInt8) (lines : List (UInt8 × List UInt8)) (i : Nat)
    (body : List UInt8) : Prop :=
  ∀ fuel sdp, sdpParse fuel s = .ok sdp →
    FormatsKept sdp i (formats body) ∧ Accepts {} (stringAt s 0) lines

theorem FormatsOf.length_ne {m : Media} (h : FormatsOf m body) (hne : formats body ≠ []) :
    m.fmt.count ≠ (formats body).length := by
  have hpos := List.length_pos_iff.mpr hne
  have hlength : (formats body).length = (wordsIn body).length - 3 := List.length_drop
  rw [FormatsOf] at h
  split at h
  · omega
  · rename_i hword
    rw [wordAt_afterWords] at hword
    omega

theorem mediaBodies_take (lines : List (UInt8 × List UInt8)) (n : Nat) :
    mediaBodies (lines.take n) <+: mediaBodies lines :=
  ((List.take_prefix n lines).filter _).map _

/-- No document with formats keeps them. -/
theorem formats_never_kept {s : List UInt8} (hdoc : Document {} (stringAt s 0) lines) {i : Nat}
    (hline : (mediaBodies lines)[i]? = some body) (hformats : formats body ≠ []) :
    ¬ KeepsFormats s lines i body := by
  intro hkeeps
  obtain ⟨n, haccepts⟩ := hdoc.accepts
  obtain ⟨fuel, sdp, hparse, hplaced⟩ := sdpParse_formats haccepts
  obtain ⟨hcount, m, hget, hlength⟩ := (hkeeps fuel sdp hparse).1.count
  obtain ⟨m', body', hbody', hget', hof⟩ := hplaced.entry hcount
  obtain rfl : m = m' := Option.some.inj (hget.symm.trans hget')
  obtain ⟨back, hback⟩ := mediaBodies_take lines n
  rw [← hback, List.getElem?_append_left (List.getElem?_eq_some_iff.mp hbody').1, hbody'] at hline
  obtain rfl := Option.some.inj hline
  exact hof.length_ne hformats hlength

/-- An `m=` line with one format and a line behind it. -/
def formatText : List UInt8 := ascii "m=video 6000 RTP/AVP 96\r\na=recvonly\r\n" ++ [0]

def formatLines : List (UInt8 × List UInt8) :=
  [(byte 'm', ascii "video 6000 RTP/AVP 96\r\na=recvonly\r\n"),
    (byte 'a', ascii "recvonly\r\n")]

theorem formatText_document : Document {} (stringAt formatText 0) formatLines := by
  apply Document.media (.mk (by decide)) rfl rfl
  apply Document.line (.mk (by decide)) rfl (by decide) rfl
  exact .done fun hopens => nomatch hopens

theorem formats_never_kept_first :
    ¬ KeepsFormats formatText formatLines 0 (ascii "video 6000 RTP/AVP 96\r\na=recvonly\r\n") :=
  formats_never_kept formatText_document rfl (mt formats_eq_nil.mp (by decide))

/-- The list is empty. -/
theorem formatText_lost : Document {} (stringAt formatText 0) formatLines ∧
    ¬ KeepsFormats formatText formatLines 0
      (ascii "video 6000 RTP/AVP 96\r\na=recvonly\r\n") := by
  refine ⟨formatText_document, fun hkeeps => ?_⟩
  have hrun : (sdpParse 64 formatText).toOption.any
      (fun sdp => (sdp.m.get? 0).any fun m => m.fmt.count = 0) = true := by decide +kernel
  obtain ⟨sdp, hparse, hempty⟩ := sdpParse_of_any hrun
  obtain ⟨-, m, hget, hlength⟩ := (hkeeps 64 sdp hparse).1.count
  simp only [hget, Option.any_some, decide_eq_true_eq] at hempty
  rw [hempty, eq_comm, List.length_eq_zero_iff, formats_eq_nil] at hlength
  revert hlength
  decide

end GbStream.Sdp
