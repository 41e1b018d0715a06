import GbStream.Sdp.Formats
import GbStream.Sdp.Understood

/-!
# The contents of any accepted text

What the lines that the parser has accepted say, whether they are well-formed or not, and that
the object which `sdp_parse` returns holds it: the entries of its lists are those of the lines,
in their order, and each of their pointers leads to the string of the line.
-/

namespace GbStream.Sdp

open Support Support.CString

variable {t v : Text} {sdp sdp' : Session} {d : Description} {kind : LineKind} {w : List UInt8}
  {lines : List (UInt8 × List UInt8)} {line : UInt8 × List UInt8}

/-! ## What the lines say -/

def lineOf (body : List UInt8) : LineKind → Option Line
  | .v => some (.version ((skipBlanks body).takeWhile isDigit))
  | .o =>
      some
        (.origin (wordAt body) (wordAt (afterWord body)) (wordAt (afterWords 2 body))
          (wordAt (afterWords 3 body)) (wordAt (afterWords 4 body)) (wordAt (afterWords 5 body)))
  | .s => some (.name (upTo eol body))
  | .i => some (.information (upTo eol body))
  | .u => some (.uri (upTo eol body))
  | .e => some (.email (upTo eol body))
  | .p => some (.phone (trimmed (upTo eol body)))
  | .y => some (.y (upTo eol body))
  | .c =>
      some
        (.connection (wordAt body) (wordAt (afterWord body)) (restAt (afterWords 2 body)))
  | .t => some (.timing (wordAt body) (restAt (afterWord body)))
  | .b => some (.bandwidth (nameAt body) (restAt (afterColon body)))
  | .k => some (.encryption (nameAt body) (some (restAt (afterColon body))))
  | .a => some (.attribute (nameAt body) (some (restAt (afterColon body))))
  | .m =>
      some
        (.media
          { media := wordAt body, port := wordAt (afterWord body)
            proto := wordAt (afterWords 2 body), formats := formats body })
  | .r | .z => none

def stated (line : UInt8 × List UInt8) : Option Line :=
  (lineKinds.lookup line.1).bind (lineOf line.2)

/-- What the accepted lines say, section by section. -/
def contents (lines : List (UInt8 × List UInt8)) : Description := describe (lines.filterMap stated)

theorem lookup_of_letter {c : UInt8} (h : (c, kind) ∈ lineKinds) :
    lineKinds.lookup c = some kind := by
  have hall : ∀ entry ∈ lineKinds, lineKinds.lookup entry.1 = some entry.2 := by decide
  exact hall _ h

theorem contents_concat (lines : List (UInt8 × List UInt8)) (hkind : (line.1, kind) ∈ lineKinds) :
    contents (lines ++ [line]) =
      match lineOf line.2 kind with
      | none => contents lines
      | some l => (contents lines).add l := by
  have hstates : stated line = lineOf line.2 kind := by rw [stated, lookup_of_letter hkind]; rfl
  unfold contents
  cases hline : lineOf line.2 kind with
  | none => rw [filterMap_concat_none (hstates.trans hline)]
  | some l => rw [filterMap_concat_some (hstates.trans hline), describe_concat]

/-! ## What the object holds -/

/-- A string that no later line writes to: it ends in front of the scanner, or there is no later
line. -/
structure Held (t : Text) (ptr : Nat) (w : List UInt8) : Prop where
  isString : IsString t.raw ptr w
  kept : ¬ At t [] → ptr + w.length < t.offset

def Refers (t : Text) (p : Option Nat) (w : List UInt8) : Prop := ∃ ptr, p = some ptr ∧ Held t ptr w

def PairHolds (t : Text) (p q : Option Nat) (x : List UInt8 × List UInt8) : Prop :=
  Refers t p x.1 ∧ Refers t q x.2

def ConnectionHolds (t : Text) (c : Connection) (x : List UInt8 × List UInt8 × List UInt8) :
    Prop :=
  Refers t c.network x.1 ∧ Refers t c.addrtype x.2.1 ∧ Refers t c.address x.2.2

structure MediaHolds (t : Text) (m : Media) (x : MediaLine × Section) : Prop where
  media : Refers t m.media x.1.media
  port : Refers t m.port x.1.port
  proto : Refers t m.proto x.1.proto
  connections : m.c.Placed (ConnectionHolds t) x.2.connections
  bandwidths : m.b.Placed (fun b x => PairHolds t b.bwtype b.bandwidth x) x.2.bandwidths
  attributes : m.a.Placed (fun a x => PairHolds t a.name a.value x) x.2.attributes

structure SessionHolds (sdp : Session) (d : Description) : Prop where
  emails : sdp.e.Placed (Refers sdp.text) d.emails
  phones : sdp.p.Placed (Refers sdp.text) d.phones
  connection : (d.session.connections = [] → sdp.c = default) ∧
    ∀ x ∈ d.session.connections.getLast?, ConnectionHolds sdp.text sdp.c x
  bandwidths : sdp.b.Placed (fun b x => PairHolds sdp.text b.bwtype b.bandwidth x)
    d.session.bandwidths
  attributes : sdp.a.Placed (fun a x => PairHolds sdp.text a.name a.value x)
    d.session.attributes
  medias : sdp.m.Placed (MediaHolds sdp.text) d.medias

theorem sessionHolds_empty (text : Text) : SessionHolds { text } (contents []) where
  emails := .empty
  phones := .empty
  connection := ⟨fun _ => rfl, fun _ hx => nomatch hx⟩
  bandwidths := .empty
  attributes := .empty
  medias := .empty

/-! ## Later lines keep it -/

theorem Shown.held {ptr : Nat} (h : Shown t ptr w) : Held t ptr w := ⟨h.isString, fun _ => h.lt⟩

theorem Refers.frame {p : Option Nat} (h : Refers t p w) (hgoes : ¬ At t []) (hframe : Frame t v) :
    Refers v p w := by
  obtain ⟨ptr, rfl, hheld⟩ := h
  have hshown : Shown t ptr w := ⟨hheld.isString, hheld.kept hgoes⟩
  exact ⟨ptr, rfl, (hshown.frame hframe).held⟩

theorem PairHolds.frame {p q : Option Nat} {x : List UInt8 × List UInt8} (h : PairHolds t p q x)
    (hgoes : ¬ At t []) (hframe : Frame t v) : PairHolds v p q x :=
  ⟨h.1.frame hgoes hframe, h.2.frame hgoes hframe⟩

theorem ConnectionHolds.frame {c : Connection} {x : List UInt8 × List UInt8 × List UInt8}
    (h : ConnectionHolds t c x) (hgoes : ¬ At t []) (hframe : Frame t v) : ConnectionHolds v c x :=
  ⟨h.1.frame hgoes hframe, h.2.1.frame hgoes hframe, h.2.2.frame hgoes hframe⟩

theorem MediaHolds.frame {m : Media} {x : MediaLine × Section} (h : MediaHolds t m x)
    (hgoes : ¬ At t []) (hframe : Frame t v) : MediaHolds v m x where
  media := h.media.frame hgoes hframe
  port := h.port.frame hgoes hframe
  proto := h.proto.frame hgoes hframe
  connections := h.connections.imp fun _ _ hconnection => hconnection.frame hgoes hframe
  bandwidths := h.bandwidths.imp fun _ _ hpair => hpair.frame hgoes hframe
  attributes := h.attributes.imp fun _ _ hpair => hpair.frame hgoes hframe

theorem SessionHolds.frame (h : SessionHolds sdp d) (hgoes : ¬ At sdp.text [])
    (hframe : Frame sdp.text v) : SessionHolds { sdp with text := v } d where
  emails := h.emails.imp fun _ _ hrefers => hrefers.frame hgoes hframe
  phones := h.phones.imp fun _ _ hrefers => hrefers.frame hgoes hframe
  connection := ⟨h.connection.1, fun x hx => (h.connection.2 x hx).frame hgoes hframe⟩
  bandwidths := h.bandwidths.imp fun _ _ hpair => hpair.frame hgoes hframe
  attributes := h.attributes.imp fun _ _ hpair => hpair.frame hgoes hframe
  medias := h.medias.imp fun _ _ hmedia => hmedia.frame hgoes hframe

/-! ## One line -/

theorem Outcome.of_ok {α : Type} {r : Except Stop α} {rest? : Option (List UInt8)}
    {P : List UInt8 → α → Prop} {a : α} (h : Outcome r rest? P) (hr : r = .ok a) :
    ∃ rest, rest? = some rest ∧ P rest a := by
  cases h with
  | fails hr' =>
      rw [hr] at hr'
      cases hr'
  | leaves hr' hP =>
      obtain rfl := Except.ok.inj (hr.symm.trans hr')
      exact ⟨_, rfl, hP⟩

/-- The tokens of a closed line are held, also those of a last line without an end. -/
theorem Closed.refers {ys rest : List UInt8} {toks : List Token} {ws : List (List UInt8)}
    (h : Closed t v ys rest toks ws) (hend : lineEnd ys = some rest) :
    List.Forall₂ (fun (tok : Token) w => Refers v (some tok.ptr) w) toks ws := by
  by_cases hys : ys = []
  · subst hys
    obtain rfl : [] = rest := Option.some.inj hend
    exact h.strings.imp fun _ _ hstring => ⟨_, rfl, hstring, fun hgoes => absurd h.rest hgoes⟩
  · exact (h.shown hys).imp fun _ _ hshown => ⟨_, rfl, hshown.held⟩

theorem Closed.refersPair {ys rest x y : List UInt8} {a b : Token}
    (h : Closed t v ys rest [a, b] [x, y]) (hend : lineEnd ys = some rest) :
    PairHolds v (some a.ptr) (some b.ptr) (x, y) := by
  have hrefers := h.refers hend
  simp only [List.forall₂_cons] at hrefers
  exact ⟨hrefers.1, hrefers.2.1⟩

def Recorded.States (t : Text) : Recorded → Line → Prop
  | .connection a b c, .connection x y z => ConnectionHolds t ⟨some a, some b, some c⟩ (x, y, z)
  | .bandwidth a b, .bandwidth x y => PairHolds t (some a) (some b) (x, y)
  | .attribute a b, .attribute x value => PairHolds t (some a) (some b) (x, value.getD [])
  | .information _, .information _ => True
  | .encryption .., .encryption .. => True
  | _, _ => False

theorem MediaHolds.record {m : Media} {x : MediaLine × Section} {r : Recorded} {l : Line}
    (h : MediaHolds t m x) (hstates : r.States t l) :
    MediaHolds t (r.onMedia m) (x.1, x.2.add l) := by
  cases r with
  | information i =>
      cases l with
      | information text => exact { h with }
      | _ => cases hstates
  | connection a b c =>
      cases l with
      | connection u v w => exact { h with connections := h.connections.push hstates }
      | _ => cases hstates
  | bandwidth a b =>
      cases l with
      | bandwidth u v => exact { h with bandwidths := h.bandwidths.push hstates }
      | _ => cases hstates
  | encryption a b =>
      cases l with
      | encryption u v => exact { h with }
      | _ => cases hstates
  | «attribute» a b =>
      cases l with
      | «attribute» u v => exact { h with attributes := h.attributes.push hstates }
      | _ => cases hstates

theorem SessionHolds.onSession {r : Recorded} {l : Line} (h : SessionHolds sdp d)
    (hstates : r.States sdp.text l) :
    SessionHolds (r.onSession sdp) { d with session := d.session.add l } := by
  cases r with
  | information i =>
      cases l with
      | information text => exact { h with }
      | _ => cases hstates
  | connection a b c =>
      cases l with
      | connection u v w =>
          have hconnections : (d.session.connections ++ [(u, v, w)]).getLast? = some (u, v, w) :=
            List.getLast?_concat
          refine { h with connection := ⟨fun hnil => ?_, fun x hx => ?_⟩ }
          · exact absurd hnil (List.append_ne_nil_of_right_ne_nil _ (List.cons_ne_nil _ _))
          · obtain rfl := Option.some.inj (hconnections.symm.trans hx)
            exact hstates
      | _ => cases hstates
  | bandwidth a b =>
      cases l with
      | bandwidth u v => exact { h with bandwidths := h.bandwidths.push hstates }
      | _ => cases hstates
  | encryption a b =>
      cases l with
      | encryption u v => exact { h with }
      | _ => cases hstates
  | «attribute» a b =>
      cases l with
      | «attribute» u v => exact { h with attributes := h.attributes.push hstates }
      | _ => cases hstates

theorem add_of_states {r : Recorded} {l : Line} (h : r.States t l) (d : Description) :
    d.add l = d.addToSection l := by
  cases r <;> cases l <;> first | rfl | cases h

theorem SessionHolds.record {r : Recorded} {l : Line} (h : SessionHolds sdp d)
    (hstates : r.States sdp.text l) (hrecord : sdp.record r.onMedia r.onSession = .ok sdp') :
    SessionHolds sdp' (d.add l) := by
  have hlength := h.medias.count
  rw [add_of_states hstates, Description.addToSection]
  rcases record_cases hrecord with ⟨hpos, m, hlast, rfl⟩ | ⟨hzero, rfl⟩
  · have hne : d.medias ≠ [] := by
      rw [← List.length_pos_iff]
      omega
    have hmedias : (sdp.m.set (sdp.m.count - 1) (r.onMedia m)).Placed (MediaHolds sdp.text)
        (d.medias.modifyLast fun x => (x.1, x.2.add l)) :=
      h.medias.modifyLast (Nat.ne_of_gt hpos) (get?_of_lastMedia hlast)
        fun x hx => hx.record hstates
    rw [if_neg hne]
    exact { h with medias := hmedias }
  · have hnil : d.medias = [] := by
      rw [← List.length_eq_zero_iff]
      omega
    rw [if_pos hnil]
    exact h.onSession hstates

theorem SessionHolds.mediaOk (h : SessionHolds sdp d) : sdp.MediaOk := by
  intro hcount
  obtain ⟨m, x, -, hget, -⟩ := h.medias.entry (k := sdp.m.count - 1) (by omega)
  exact ⟨m, by rw [Session.lastMedia, hget]⟩

/-! ## Lines that are read -/

section Read

variable {body : List UInt8}

theorem SessionHolds.outcome {rest? : Option (List UInt8)}
    {P : Session → List UInt8 → Session → Prop} (h : SessionHolds sdp d)
    (hread : LineRead sdp body kind sdp')
    (houtcome : ∀ (s : Session) fuel, 2 ≤ fuel → At s.text body → s.MediaOk →
      Outcome (parseBody fuel s kind) rest? (P s)) :
    ∃ t rest, Frame sdp.text t ∧ rest? = some rest ∧ P { sdp with text := t } rest sdp' := by
  obtain ⟨t, fuel, hat, hframe, hfuel, hbody⟩ := hread.body
  obtain ⟨rest, hrest, hP⟩ :=
    (houtcome { sdp with text := t } fuel hfuel hat h.mediaOk).of_ok hbody
  exact ⟨t, rest, hframe, hrest, hP⟩

theorem SessionHolds.email (h : SessionHolds sdp d) (hread : LineRead sdp body .e sdp') :
    SessionHolds sdp' (d.add (.email (upTo eol body))) := by
  obtain ⟨t, rest, hframe, hend, v, a, hclosed, rfl⟩ :=
    h.outcome hread fun _ _ _ hat _ => parseEmail_outcome hat
  have hrefers := hclosed.refers hend
  simp only [List.forall₂_cons] at hrefers
  have hholds := h.frame hread.goesOn (hframe.trans hclosed.frame)
  exact { hholds with emails := hholds.emails.push hrefers.1 }

theorem SessionHolds.phone (h : SessionHolds sdp d) (hread : LineRead sdp body .p sdp') :
    SessionHolds sdp' (d.add (.phone (trimmed (upTo eol body)))) := by
  obtain ⟨t, rest, hframe, hend, v, a, hclosed, rfl⟩ :=
    h.outcome hread fun _ _ _ hat _ => parsePhone_outcome hat
  have hrefers := hclosed.refers hend
  simp only [List.forall₂_cons] at hrefers
  have hholds := h.frame hread.goesOn (hframe.trans hclosed.frame)
  exact { hholds with phones := hholds.phones.push hrefers.1 }

theorem SessionHolds.information (h : SessionHolds sdp d) (hread : LineRead sdp body .i sdp') :
    SessionHolds sdp' (d.add (.information (upTo eol body))) := by
  obtain ⟨t, rest, hframe, hend, v, a, hclosed, hrecord⟩ :=
    h.outcome hread fun _ _ _ hat hmedia => parseInformation_outcome hat hmedia
  have hholds := h.frame hread.goesOn (hframe.trans hclosed.frame)
  exact hholds.record (r := .information a.ptr) (l := .information (upTo eol body)) trivial hrecord

theorem SessionHolds.connectionLine (h : SessionHolds sdp d) (hread : LineRead sdp body .c sdp') :
    SessionHolds sdp'
      (d.add
        (.connection (wordAt body) (wordAt (afterWord body)) (restAt (afterWords 2 body)))) := by
  obtain ⟨t, rest, hframe, hrest, v, a, b, c, hclosed, hrecord⟩ :=
    h.outcome hread fun _ _ _ hat hmedia => parseConnection_outcome hat hmedia
  have hend : lineEnd (afterRest (afterWords 2 body)) = some rest := by
    split at hrest
    · exact hrest
    · cases hrest
  have hrefers := hclosed.refers hend
  simp only [connectionParts, List.forall₂_cons] at hrefers
  obtain ⟨ha, hb, hc, -⟩ := hrefers
  have hholds := h.frame hread.goesOn (hframe.trans hclosed.frame)
  exact hholds.record (r := .connection a.ptr b.ptr c.ptr)
    (l := .connection (wordAt body) (wordAt (afterWord body)) (restAt (afterWords 2 body)))
    ⟨ha, hb, hc⟩ hrecord

theorem SessionHolds.bandwidth (h : SessionHolds sdp d) (hread : LineRead sdp body .b sdp') :
    SessionHolds sdp' (d.add (.bandwidth (nameAt body) (restAt (afterColon body)))) := by
  obtain ⟨t, rest, hframe, hend, v, a, b, hclosed, hrecord⟩ :=
    h.outcome hread fun _ _ _ hat hmedia => parseBandwidth_outcome hat hmedia
  have hholds := h.frame hread.goesOn (hframe.trans hclosed.frame)
  exact hholds.record (r := .bandwidth a.ptr b.ptr)
    (l := .bandwidth (nameAt body) (restAt (afterColon body))) (hclosed.refersPair hend) hrecord

theorem SessionHolds.encryption (h : SessionHolds sdp d) (hread : LineRead sdp body .k sdp') :
    SessionHolds sdp' (d.add (.encryption (nameAt body) (some (restAt (afterColon body))))) := by
  obtain ⟨t, rest, hframe, hend, v, a, b, hclosed, hrecord⟩ :=
    h.outcome hread fun _ _ _ hat hmedia => parseEncryption_outcome hat hmedia
  have hholds := h.frame hread.goesOn (hframe.trans hclosed.frame)
  exact hholds.record (r := .encryption a.ptr b.ptr)
    (l := .encryption (nameAt body) (some (restAt (afterColon body)))) trivial hrecord

theorem SessionHolds.attribute (h : SessionHolds sdp d) (hread : LineRead sdp body .a sdp') :
    SessionHolds sdp' (d.add (.attribute (nameAt body) (some (restAt (afterColon body))))) := by
  obtain ⟨t, rest, hframe, hend, v, a, b, hclosed, hrecord⟩ :=
    h.outcome hread fun _ _ _ hat hmedia => parseAttribute_outcome hat hmedia
  have hholds := h.frame hread.goesOn (hframe.trans hclosed.frame)
  exact hholds.record (r := .attribute a.ptr b.ptr)
    (l := .attribute (nameAt body) (some (restAt (afterColon body))))
    (hclosed.refersPair hend) hrecord

theorem lineEnd_of_not_atEol {xs : List UInt8} (h : ¬ AtEol xs) {rest : List UInt8}
    (hend : lineEnd xs = some rest) : rest = [] := by
  cases xs with
  | nil => exact (Option.some.inj hend).symm
  | cons c xs =>
      have hc : c ∉ eol := fun hmem => h (.mk hmem)
      simp only [eol, List.mem_cons, List.not_mem_nil, or_false, not_or] at hc
      rw [lineEnd, List.head?_cons, if_neg (fun heq => hc.1 (Option.some.inj heq)), afterLineFeed,
        if_neg hc.2] at hend
      cases hend

theorem MediaOf.refers {a b c : Token} {m : Media} (h : MediaOf v body a b c m)
    {rest : List UInt8} (hrest : lineEnd (mediaRest body) = some rest) (hat : At v rest) :
    Refers v m.media (wordAt body) ∧ Refers v m.port (wordAt (afterWord body)) ∧
      Refers v m.proto (wordAt (afterWords 2 body)) := by
  have hheld : List.Forall₂ (fun (tok : Token) w => Refers v (some tok.ptr) w) [a, b, c]
      (wordsAt 3 body) := by
    by_cases heol : AtEol (afterWords 16 body)
    · exact (h.shown heol).imp fun _ _ hshown => ⟨_, rfl, hshown.held⟩
    · -- nothing is read behind a line without an end
      have hnil : rest = [] := by
        rw [mediaRest] at hrest
        split at hrest
        · exact (Option.some.inj hrest).symm
        · exact lineEnd_of_not_atEol heol hrest
      subst hnil
      exact h.strings.imp fun _ _ hstring => ⟨_, rfl, hstring, fun hgoes => absurd hat hgoes⟩
  simp only [wordsAt, List.forall₂_cons] at hheld
  obtain ⟨ha, hb, hc, -⟩ := hheld
  rw [h.media]
  exact ⟨ha, hb, hc⟩

theorem SessionHolds.mediaLine (h : SessionHolds sdp d) (hread : LineRead sdp body .m sdp') :
    SessionHolds sdp'
      (d.add
        (.media
          { media := wordAt body, port := wordAt (afterWord body)
            proto := wordAt (afterWords 2 body), formats := formats body })) := by
  obtain ⟨t, rest, hframe, hrest, v, a, b, c, m, hat, hframe', hmedia, rfl⟩ :=
    h.outcome hread fun _ _ hfuel hat _ => parseMedia_outcome hat hfuel
  obtain ⟨ha, hb, hc⟩ := hmedia.refers hrest hat
  have hholds := h.frame hread.goesOn (hframe.trans hframe')
  have hnew : MediaHolds v m ({
      media := wordAt body, port := wordAt (afterWord body)
      proto := wordAt (afterWords 2 body), formats := formats body }, sectionOf []) := by
    refine ⟨ha, hb, hc, ?_, ?_, ?_⟩
    all_goals
      rw [hmedia.media]
      exact .empty
  exact { hholds with medias := hholds.medias.push hnew }

end Read

theorem SessionHolds.step (h : SessionHolds sdp (contents lines))
    (hkind : (line.1, kind) ∈ lineKinds) (hread : LineRead sdp line.2 kind sdp') :
    SessionHolds sdp' (contents (lines ++ [line])) := by
  rw [contents_concat lines hkind]
  have hholds := h.frame hread.goesOn hread.frame
  cases hread.bodyRead.change with
  | plain text effect happly =>
      cases effect with
      | recorded r =>
          cases r with
          | information i => exact h.information hread
          | connection network addrtype address => exact h.connectionLine hread
          | bandwidth bwtype value => exact h.bandwidth hread
          | encryption method key => exact h.encryption hread
          | «attribute» name value => exact h.attribute hread
      | email e => exact h.email hread
      | phone p => exact h.phone hread
      | version | origin | name | y | uri | timing =>
          -- what these lines write is none of the lists
          cases happly
          exact { hholds with }
  | repeats | timezone => exact { hholds with }
  | media text media port proto fmt => exact h.mediaLine hread

theorem sdpParse_of_accepts {s : List UInt8} (h : Accepts {} (stringAt s 0) lines) :
    ∃ fuel sdp, sdpParse fuel s = .ok sdp ∧ SessionHolds sdp (contents lines) := by
  have hstep : ∀ seen line kind sdp sdp', (line.1, kind) ∈ lineKinds →
      SessionHolds sdp (contents seen) → LineRead sdp line.2 kind sdp' →
      SessionHolds sdp' (contents (seen ++ [line])) :=
    fun _ _ _ _ _ hkind hholds hread => hholds.step hkind hread
  obtain ⟨sdp, hparse, hholds⟩ := sdpParse_kept s sessionHolds_empty hstep h _ (Nat.le_refl _)
  exact ⟨_, sdp, hparse, hholds⟩

/-- The session that `sdp_parse` returns holds what the lines of its text say. -/
theorem sdpParse_holds {s : List UInt8} {fuel : Nat} (h : sdpParse fuel s = .ok sdp) :
    ∃ lines, Accepts {} (stringAt s 0) lines ∧ SessionHolds sdp (contents lines) := by
  obtain ⟨lines, haccepts⟩ := sdpParse_ok_accepts h
  obtain ⟨fuel', sdp', hparse, hholds⟩ := sdpParse_of_accepts haccepts
  obtain rfl := sdpParse_eq h hparse
  exact ⟨lines, haccepts, hholds⟩

/-! ## Searches for an attribute -/

theorem Refers.string {p : Option Nat} (h : Refers sdp.text p w) : p.map sdp.string = some w := by
  obtain ⟨ptr, rfl, hheld⟩ := h
  exact congrArg some (stringAt_eq hheld.isString)

theorem SessionHolds.getMedia (h : SessionHolds sdp d) (i : Nat) :
    (sdpGetMedia sdp i = none ∧ d.medias[i]? = none) ∨
      ∃ m x, sdpGetMedia sdp i = some m ∧ d.medias[i]? = some x ∧ MediaHolds sdp.text m x := by
  have hcount := h.medias.count
  by_cases hi : i ≥ sdp.m.count
  · exact .inl ⟨if_pos hi, List.getElem?_eq_none (by omega)⟩
  · obtain ⟨m, x, hx, hm, hholds⟩ := h.medias.entry (Nat.lt_of_not_le hi)
    exact .inr ⟨m, x, by rw [sdpGetMedia, if_neg hi, hm], hx, hholds⟩

theorem SessionHolds.mediaType (h : SessionHolds sdp d) (i : Nat) :
    (sdpMediaType sdp i).map sdp.string = d.medias[i]?.map fun x => x.1.media := by
  rcases h.getMedia i with ⟨hnone, hd⟩ | ⟨m, x, hsome, hd, hholds⟩
  · rw [sdpMediaType, hnone, hd]
    rfl
  · rw [sdpMediaType, hsome, hd]
    exact hholds.media.string

theorem SessionHolds.mediaAttributeFind (h : SessionHolds sdp d) (i : Nat) (name : List UInt8) :
    (sdpMediaAttributeFind sdp i name).map sdp.string =
      d.medias[i]?.bind fun x => x.2.attributes.lookup name := by
  rcases h.getMedia i with ⟨hnone, hd⟩ | ⟨m, x, hsome, hd, hholds⟩
  · rw [sdpMediaAttributeFind, hnone, hd]
    rfl
  · rw [sdpMediaAttributeFind, hsome, hd]
    have hshows := Growable.placed_iff_shows.mp hholds.attributes
    exact attributeFind_string
      (hshows.imp fun _ _ hpair => ⟨hpair.1.string, hpair.2.string⟩) name

end GbStream.Sdp
