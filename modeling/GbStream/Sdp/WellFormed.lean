import GbStream.Sdp.Rendered

/-!
# Well-formed descriptions are understood

While the lines are parsed one after the other, the session object shows what the lines
so far say: its pointers lead to strings in front of the scanner, which no later line
touches.
-/

namespace GbStream.Sdp

open Support Support.CString

variable {t v : Text} {sdp : Session} {d : Description}

/-! ## What the object shows -/

def Points (t : Text) (p : Option Nat) (w : List UInt8) : Prop :=
  ∃ ptr, p = some ptr ∧ Shown t ptr w

def MayPoint (t : Text) (p : Option Nat) : Option (List UInt8) → Prop
  | none => p = none
  | some w => Points t p w

def PairShows (t : Text) (p q : Option Nat) (x : List UInt8 × List UInt8) : Prop :=
  Points t p x.1 ∧ Points t q x.2

def ConnectionShows (t : Text) (c : Connection) (x : List UInt8 × List UInt8 × List UInt8) :
    Prop :=
  Points t c.network x.1 ∧ Points t c.addrtype x.2.1 ∧ Points t c.address x.2.2

def OriginShows (t : Text) (o : Origin)
    (x : List UInt8 × List UInt8 × List UInt8 × List UInt8 × List UInt8 × List UInt8) : Prop :=
  Points t o.username x.1 ∧ Points t o.session x.2.1 ∧ Points t o.sessionVersion x.2.2.1 ∧
    ConnectionShows t o.c x.2.2.2

structure SectionShows (t : Text) (i : Option Nat) (b : Growable Bandwidth 1) (k : Encryption)
    (a : Growable Attribute 5) (s : Section) : Prop where
  information : MayPoint t i s.information
  bandwidths : b.Shows (fun b x => PairShows t b.bwtype b.bandwidth x) s.bandwidths
  encryption : (s.encryption = none → k = default) ∧
    ∀ x ∈ s.encryption, PairShows t k.method k.key x
  attributes : a.Shows (fun a x => PairShows t a.name a.value x) s.attributes

structure MediaShows (t : Text) (m : Media) (x : MediaLine × Section) : Prop where
  media : Points t m.media x.1.media
  port : Points t m.port x.1.port
  proto : Points t m.proto x.1.proto
  connections : m.c.Shows (ConnectionShows t) x.2.connections
  parts : SectionShows t m.i m.b m.k m.a x.2

structure SessionShows (sdp : Session) (d : Description) : Prop where
  version : sdp.v = (d.version.getD 0 : Nat)
  origin : (d.origin = none → sdp.o = default) ∧ ∀ x ∈ d.origin, OriginShows sdp.text sdp.o x
  name : MayPoint sdp.text sdp.s d.name
  uri : MayPoint sdp.text sdp.u d.uri
  y : MayPoint sdp.text sdp.y d.y
  emails : sdp.e.Shows (Points sdp.text) d.emails
  phones : sdp.p.Shows (Points sdp.text) d.phones
  timings : sdp.t.Shows (fun t x => PairShows sdp.text t.start t.stop x) d.timings
  connection : (d.session.connections = [] → sdp.c = default) ∧
    ∀ x ∈ d.session.connections.getLast?, ConnectionShows sdp.text sdp.c x
  parts : SectionShows sdp.text sdp.i sdp.b sdp.k sdp.a d.session
  medias : sdp.m.Shows (MediaShows sdp.text) d.medias

/-! ## Later lines keep it -/

theorem Points.frame {p : Option Nat} {w : List UInt8} (h : Points t p w) (hframe : Frame t v) :
    Points v p w := by
  obtain ⟨ptr, rfl, hshown⟩ := h
  exact ⟨ptr, rfl, hshown.frame hframe⟩

theorem MayPoint.frame {p : Option Nat} {w? : Option (List UInt8)} (h : MayPoint t p w?)
    (hframe : Frame t v) : MayPoint v p w? := by
  cases w? with
  | none => exact h
  | some w => exact Points.frame h hframe

theorem PairShows.frame {p q : Option Nat} {x : List UInt8 × List UInt8}
    (h : PairShows t p q x) (hframe : Frame t v) : PairShows v p q x :=
  ⟨h.1.frame hframe, h.2.frame hframe⟩

theorem ConnectionShows.frame {c : Connection} {x : List UInt8 × List UInt8 × List UInt8}
    (h : ConnectionShows t c x) (hframe : Frame t v) : ConnectionShows v c x :=
  ⟨h.1.frame hframe, h.2.1.frame hframe, h.2.2.frame hframe⟩

theorem SectionShows.frame {i : Option Nat} {b : Growable Bandwidth 1} {k : Encryption}
    {a : Growable Attribute 5} {s : Section} (h : SectionShows t i b k a s)
    (hframe : Frame t v) : SectionShows v i b k a s where
  information := h.information.frame hframe
  bandwidths := h.bandwidths.imp fun _ _ hpair => hpair.frame hframe
  encryption := ⟨h.encryption.1, fun x hx => (h.encryption.2 x hx).frame hframe⟩
  attributes := h.attributes.imp fun _ _ hpair => hpair.frame hframe

theorem MediaShows.frame {m : Media} {x : MediaLine × Section} (h : MediaShows t m x)
    (hframe : Frame t v) : MediaShows v m x where
  media := h.media.frame hframe
  port := h.port.frame hframe
  proto := h.proto.frame hframe
  connections := h.connections.imp fun _ _ hconnection => hconnection.frame hframe
  parts := h.parts.frame hframe

theorem SessionShows.frame (h : SessionShows sdp d) (hframe : Frame sdp.text v) :
    SessionShows { sdp with text := v } d where
  version := h.version
  origin := ⟨h.origin.1, fun x hx =>
    let ⟨husername, hsession, hversion, hconnection⟩ := h.origin.2 x hx
    ⟨husername.frame hframe, hsession.frame hframe, hversion.frame hframe,
      hconnection.frame hframe⟩⟩
  name := h.name.frame hframe
  uri := h.uri.frame hframe
  y := h.y.frame hframe
  emails := h.emails.imp fun _ _ hpoints => hpoints.frame hframe
  phones := h.phones.imp fun _ _ hpoints => hpoints.frame hframe
  timings := h.timings.imp fun _ _ hpair => hpair.frame hframe
  connection := ⟨h.connection.1, fun x hx => (h.connection.2 x hx).frame hframe⟩
  parts := h.parts.frame hframe
  medias := h.medias.imp fun _ _ hmedia => hmedia.frame hframe

/-! ## Lines of a section -/

theorem SessionShows.count_iff (h : SessionShows sdp d) : 0 < sdp.m.count ↔ d.medias ≠ [] := by
  rw [h.medias.count, List.length_pos_iff]

theorem SessionShows.lastMedia (h : SessionShows sdp d) {front : List (MediaLine × Section)}
    {x : MediaLine × Section} (hd : d.medias = front ++ [x]) :
    ∃ m, sdp.lastMedia = .ok m ∧ MediaShows sdp.text m x := by
  have hmedias := h.medias
  rw [hd] at hmedias
  obtain ⟨m, hget, hshows⟩ := hmedias.last
  exact ⟨m, by rw [Session.lastMedia, hget], hshows⟩

theorem SessionShows.mediaOk (h : SessionShows sdp d) : sdp.MediaOk := by
  intro hcount
  rcases List.eq_nil_or_concat d.medias with hnil | ⟨front, x, hsplit⟩
  · exact absurd hnil (h.count_iff.mp hcount)
  · rw [List.concat_eq_append] at hsplit
    obtain ⟨m, hlast, -⟩ := h.lastMedia hsplit
    exact ⟨m, hlast⟩

theorem SessionShows.record {line : Line} {onMedia : Media → Media}
    {onSession : Session → Session} {sdp' : Session} (h : SessionShows sdp d)
    (hrecord : sdp.record onMedia onSession = .ok sdp')
    (hmedia : ∀ m x, MediaShows sdp.text m x → MediaShows sdp.text (onMedia m) (x.1, x.2.add line))
    (hsession : SessionShows (onSession sdp) { d with session := d.session.add line }) :
    SessionShows sdp' (d.addToSection line) := by
  unfold Session.record at hrecord
  unfold Description.addToSection
  rcases List.eq_nil_or_concat d.medias with hnil | ⟨front, x, hsplit⟩
  · have hcount : ¬ sdp.m.count > 0 := fun hcount => h.count_iff.mp hcount hnil
    rw [if_neg hcount] at hrecord
    obtain rfl := Except.ok.inj hrecord
    rw [if_pos hnil]
    exact hsession
  · rw [List.concat_eq_append] at hsplit
    have hne : d.medias ≠ [] := by
      rw [hsplit]
      exact List.append_ne_nil_of_right_ne_nil _ (List.cons_ne_nil _ _)
    obtain ⟨m, hlast, hshows⟩ := h.lastMedia hsplit
    rw [if_pos (h.count_iff.mpr hne), hlast] at hrecord
    obtain rfl := Except.ok.inj hrecord
    rw [if_neg hne]
    refine { h with medias := ?_ }
    have hmedias := h.medias
    simp only [hsplit, List.modifyLast_concat] at hmedias ⊢
    exact hmedias.setLast (hmedia m x hshows)

theorem record_text {onMedia : Media → Media} {onSession : Session → Session} {sdp' : Session}
    (hrecord : sdp.record onMedia onSession = .ok sdp')
    (htext : (onSession sdp).text = sdp.text) : sdp'.text = sdp.text := by
  unfold Session.record at hrecord
  split at hrecord
  · cases hlast : sdp.lastMedia with
    | error e =>
        rw [hlast] at hrecord
        cases hrecord
    | ok m =>
        rw [hlast] at hrecord
        obtain rfl := Except.ok.inj hrecord
        rfl
  · obtain rfl := Except.ok.inj hrecord
    exact htext

/-! ## One line -/

theorem Outcome.of_some {α : Type} {r : Except Stop α} {rest? : Option (List UInt8)}
    {P : List UInt8 → α → Prop} {rest : List UInt8} (h : Outcome r rest? P)
    (hrest : rest? = some rest) : ∃ a, r = .ok a ∧ P rest a := by
  subst hrest
  cases h with
  | leaves hr hP => exact ⟨_, hr, hP⟩

theorem Closed.points {xs rest : List UInt8} {toks : List Token} {ws : List (List UInt8)}
    (h : Closed t v (cr :: xs) rest toks ws) :
    List.Forall₂ (fun (tok : Token) w => Points v (some tok.ptr) w) toks ws :=
  (h.shown (List.cons_ne_nil _ _)).imp fun _ _ hshown => ⟨_, rfl, hshown⟩

def Adds (r : Except Stop Session) (rest : List UInt8) (d : Description) : Prop :=
  ∃ sdp, r = .ok sdp ∧ At sdp.text rest ∧ SessionShows sdp d

variable {rest : List UInt8}

theorem adds_version {digits : List UInt8} (h : SessionShows sdp d)
    (hwf : (Line.version digits).WellFormed)
    (hat : At sdp.text ((Line.version digits).body ++ cr :: lf :: rest)) :
    Adds (parseVersion sdp) rest (d.add (.version digits)) := by
  have hdigits : ∀ c ∈ digits, isDigit c := List.all_eq_true.mp hwf.1
  have houtcome := parseVersion_outcome hat
  simp only [Line.body, skipBlanks_digits hdigits, dropWhile_digits hdigits,
    takeWhile_digits hdigits, digitsValue_eq hdigits hwf.2] at houtcome
  obtain ⟨sdp', hparse, v, hclosed, rfl⟩ := houtcome.of_some (lineEnd_crlf rest)
  exact ⟨_, hparse, hclosed.rest, { h.frame hclosed.frame with version := rfl }⟩

theorem adds_origin {a b c e f g : List UInt8} (h : SessionShows sdp d)
    (hwf : (Line.origin a b c e f g).WellFormed)
    (hat : At sdp.text ((Line.origin a b c e f g).body ++ cr :: lf :: rest)) :
    Adds (parseOrigin sdp) rest (d.add (.origin a b c e f g)) := by
  have houtcome := parseOrigin_outcome hat
  have hwords : wordsAt 6 ((Line.origin a b c e f g).body ++ cr :: lf :: rest) =
      [a, b, c, e, f, g] := wordsAt_spaced _ 6 hwf (Nat.le_refl 6)
  have hafter : afterWords 6 ((Line.origin a b c e f g).body ++ cr :: lf :: rest) =
      cr :: lf :: rest := afterWords_spaced _ 6 hwf (Nat.le_refl 6)
  rw [hwords, hafter, if_pos fun w hw => (hwf w hw).1] at houtcome
  obtain ⟨sdp', hparse, v, pa, pb, pc, pe, pf, pg, hclosed, rfl⟩ :=
    houtcome.of_some (lineEnd_crlf rest)
  have hpoints := hclosed.points
  simp only [List.forall₂_cons] at hpoints
  obtain ⟨ha, hb, hc, he, hf, hg, -⟩ := hpoints
  refine ⟨_, hparse, hclosed.rest, { h.frame hclosed.frame with origin := ?_ }⟩
  refine ⟨fun hnone => (nomatch hnone), fun x hx => ?_⟩
  obtain rfl := Option.some.inj hx
  exact ⟨ha, hb, hc, he, hf, hg⟩

theorem Closed.text {xs w : List UInt8} {tok : Token} (h : Closed t v (cr :: xs) rest [tok] [w]) :
    Points v (some tok.ptr) w := by
  have hpoints := h.points
  simp only [List.forall₂_cons] at hpoints
  exact hpoints.1

theorem adds_name {w : List UInt8} (h : SessionShows sdp d) (hwf : Value w)
    (hat : At sdp.text (w ++ cr :: lf :: rest)) :
    Adds (parseSession sdp) rest (d.add (.name w)) := by
  have houtcome := parseSession_outcome hat
  rw [behind_value hwf, upTo_value hwf] at houtcome
  obtain ⟨sdp', hparse, v, p, hclosed, rfl⟩ := houtcome.of_some (lineEnd_crlf rest)
  exact ⟨_, hparse, hclosed.rest, { h.frame hclosed.frame with name := hclosed.text }⟩

theorem adds_y {w : List UInt8} (h : SessionShows sdp d) (hwf : Value w)
    (hat : At sdp.text (w ++ cr :: lf :: rest)) :
    Adds (parseY sdp) rest (d.add (.y w)) := by
  have houtcome := parseY_outcome hat
  rw [behind_value hwf, upTo_value hwf] at houtcome
  obtain ⟨sdp', hparse, v, p, hclosed, rfl⟩ := houtcome.of_some (lineEnd_crlf rest)
  exact ⟨_, hparse, hclosed.rest, { h.frame hclosed.frame with y := hclosed.text }⟩

theorem adds_uri {w : List UInt8} (h : SessionShows sdp d) (hwf : Value w)
    (hat : At sdp.text (w ++ cr :: lf :: rest)) (hnone : d.uri = none) :
    Adds (parseUri sdp) rest (d.add (.uri w)) := by
  have huri := h.uri
  rw [hnone] at huri
  have houtcome := parseUri_outcome hat huri
  rw [behind_value hwf, upTo_value hwf] at houtcome
  obtain ⟨sdp', hparse, v, p, hclosed, rfl⟩ := houtcome.of_some (lineEnd_crlf rest)
  exact ⟨_, hparse, hclosed.rest, { h.frame hclosed.frame with uri := hclosed.text }⟩

theorem adds_email {w : List UInt8} (h : SessionShows sdp d) (hwf : Value w)
    (hat : At sdp.text (w ++ cr :: lf :: rest)) :
    Adds (parseEmail sdp) rest (d.add (.email w)) := by
  have houtcome := parseEmail_outcome hat
  rw [behind_value hwf, upTo_value hwf] at houtcome
  obtain ⟨sdp', hparse, v, p, hclosed, rfl⟩ := houtcome.of_some (lineEnd_crlf rest)
  have hframe := h.frame hclosed.frame
  exact ⟨_, hparse, hclosed.rest, { hframe with emails := hframe.emails.push hclosed.text }⟩

theorem adds_phone {w : List UInt8} (h : SessionShows sdp d) (hwf : Value w)
    (hat : At sdp.text (w ++ cr :: lf :: rest)) :
    Adds (parsePhone sdp) rest (d.add (.phone w)) := by
  have houtcome := parsePhone_outcome hat
  rw [behind_value hwf, upTo_value hwf, trimmed_value hwf] at houtcome
  obtain ⟨sdp', hparse, v, p, hclosed, rfl⟩ := houtcome.of_some (lineEnd_crlf rest)
  have hframe := h.frame hclosed.frame
  exact ⟨_, hparse, hclosed.rest, { hframe with phones := hframe.phones.push hclosed.text }⟩

theorem adds_timing {a b : List UInt8} (h : SessionShows sdp d)
    (hwf : (Line.timing a b).WellFormed)
    (hat : At sdp.text ((Line.timing a b).body ++ cr :: lf :: rest)) :
    Adds (parseTiming sdp) rest (d.add (.timing a b)) := by
  have ha : Word a := hwf a (List.mem_cons_self ..)
  have hb : Word b := hwf b (List.mem_cons_of_mem _ (List.mem_cons_self ..))
  have hbody : (Line.timing a b).body ++ cr :: lf :: rest = a ++ space :: (b ++ cr :: lf :: rest) :=
    spaced_cons_append a [b] (List.cons_ne_nil _ _)
  have houtcome := parseTiming_outcome hat
  rw [hbody, afterWord_append ha (by decide), wordAt_append ha (by decide), restAt_space,
    afterRest_space, restAt_value hb.value, afterRest_value hb.value] at houtcome
  obtain ⟨sdp', hparse, v, pa, pb, hclosed, rfl⟩ := houtcome.of_some (lineEnd_crlf rest)
  have hpoints := hclosed.points
  simp only [List.forall₂_cons] at hpoints
  obtain ⟨hpa, hpb, -⟩ := hpoints
  have hframe := h.frame hclosed.frame
  exact ⟨_, hparse, hclosed.rest, { hframe with timings := hframe.timings.push ⟨hpa, hpb⟩ }⟩

theorem adds_media {m : MediaLine} (h : SessionShows sdp d) (hwf : (Line.media m).WellFormed)
    (hat : At sdp.text ((Line.media m).body ++ cr :: lf :: rest)) {fuel : Nat} (hfuel : 2 ≤ fuel) :
    Adds (parseMedia fuel sdp) rest (d.add (.media m)) := by
  have hlength : (m.media :: m.port :: m.proto :: m.formats).length ≤ 16 := by
    have hformats := hwf.2
    simp only [List.length_cons]
    omega
  have hwords : wordsAt 3 ((Line.media m).body ++ cr :: lf :: rest) =
      [m.media, m.port, m.proto] := wordsAt_spaced _ 3 hwf.1 (by simp)
  have hafter : afterWords 16 ((Line.media m).body ++ cr :: lf :: rest) = cr :: lf :: rest :=
    afterWords_spaced _ 16 hwf.1 hlength
  have hrest : mediaRest ((Line.media m).body ++ cr :: lf :: rest) = cr :: lf :: rest := by
    have hblank : ¬ AtBlank (cr :: lf :: rest) := by
      rw [atBlank_cons]
      decide
    rw [mediaRest, hafter, if_neg hblank]
  have houtcome := parseMedia_outcome hat hfuel
  rw [hrest] at houtcome
  obtain ⟨sdp', hparse, v, pa, pb, pc, media, hat', hframe, hmedia, rfl⟩ :=
    houtcome.of_some (lineEnd_crlf rest)
  obtain ⟨hmedia, hshown, -⟩ := hmedia
  rw [hafter, hwords] at hshown
  have hpoints := hshown (.mk (by decide))
  simp only [List.forall₂_cons] at hpoints
  obtain ⟨hpa, hpb, hpc, -⟩ := hpoints
  generalize media.fmt = fmt at hmedia
  subst hmedia
  have hshows := h.frame hframe
  refine ⟨_, hparse, hat', { hshows with medias := hshows.medias.push ?_ }⟩
  exact
    { media := ⟨_, rfl, hpa⟩
      port := ⟨_, rfl, hpb⟩
      proto := ⟨_, rfl, hpc⟩
      connections := .empty
      parts :=
        { information := rfl
          bandwidths := .empty
          encryption := ⟨fun _ => rfl, fun x hx => absurd hx (Option.not_mem_none x)⟩
          attributes := .empty } }

/-! ## One line of a section -/

theorem adds_record {line : Line} {r : Except Stop Session} {onMedia : Media → Media}
    {onSession : Session → Session} {sdp' : Session} (hr : r = .ok sdp')
    (hadd : d.add line = d.addToSection line) (h : SessionShows sdp d)
    (hat : At sdp.text rest) (hrecord : sdp.record onMedia onSession = .ok sdp')
    (htext : (onSession sdp).text = sdp.text)
    (hmedia : ∀ m x, MediaShows sdp.text m x → MediaShows sdp.text (onMedia m) (x.1, x.2.add line))
    (hsession : SessionShows (onSession sdp) { d with session := d.session.add line }) :
    Adds r rest (d.add line) := by
  refine ⟨sdp', hr, ?_, ?_⟩
  · rw [record_text hrecord htext]
    exact hat
  · rw [hadd]
    exact h.record hrecord hmedia hsession

theorem adds_information {w : List UInt8} (h : SessionShows sdp d) (hwf : Value w)
    (hat : At sdp.text (w ++ cr :: lf :: rest)) :
    Adds (parseInformation sdp) rest (d.add (.information w)) := by
  have houtcome := parseInformation_outcome hat h.mediaOk
  rw [behind_value hwf, upTo_value hwf] at houtcome
  obtain ⟨sdp', hparse, v, p, hclosed, hrecord⟩ := houtcome.of_some (lineEnd_crlf rest)
  have hpoints := hclosed.text
  have hframe := h.frame hclosed.frame
  apply adds_record hparse rfl hframe hclosed.rest hrecord rfl
  · exact fun m x hm => { hm with parts := { hm.parts with information := hpoints } }
  · exact { hframe with parts := { hframe.parts with information := hpoints } }

theorem adds_connection {a b c : List UInt8} (h : SessionShows sdp d)
    (hwf : (Line.connection a b c).WellFormed)
    (hat : At sdp.text ((Line.connection a b c).body ++ cr :: lf :: rest)) :
    Adds (parseConnection sdp) rest (d.add (.connection a b c)) := by
  have ha : Word a := hwf a (by simp)
  have hb : Word b := hwf b (by simp)
  have hc : Word c := hwf c (by simp)
  have hbody : (Line.connection a b c).body ++ cr :: lf :: rest =
      a ++ space :: (b ++ space :: (c ++ cr :: lf :: rest)) := by
    simp [Line.body, spaced]
  have hparts : connectionParts ((Line.connection a b c).body ++ cr :: lf :: rest) = [a, b, c] := by
    rw [hbody, connectionParts, afterWords, afterWords, afterWords,
      afterWord_append ha (by decide), wordAt_append ha (by decide), wordAt_space,
      wordAt_append hb (by decide), afterWord_space, afterWord_append hb (by decide),
      restAt_space, restAt_value hc.value]
  have hafter : afterRest (afterWords 2 ((Line.connection a b c).body ++ cr :: lf :: rest)) =
      cr :: lf :: rest := by
    rw [hbody, afterWords, afterWords, afterWords, afterWord_append ha (by decide),
      afterWord_space, afterWord_append hb (by decide), afterRest_space,
      afterRest_value hc.value]
  have houtcome := parseConnection_outcome hat h.mediaOk
  rw [hparts, hafter, if_pos fun w hw => (hwf w hw).1] at houtcome
  obtain ⟨sdp', hparse, v, pa, pb, pc, hclosed, hrecord⟩ := houtcome.of_some (lineEnd_crlf rest)
  have hpoints := hclosed.points
  simp only [List.forall₂_cons] at hpoints
  obtain ⟨hpa, hpb, hpc, -⟩ := hpoints
  have hconnection : ConnectionShows v ⟨some pa.ptr, some pb.ptr, some pc.ptr⟩ (a, b, c) :=
    ⟨hpa, hpb, hpc⟩
  have hframe := h.frame hclosed.frame
  apply adds_record hparse rfl hframe hclosed.rest hrecord rfl
  · exact fun m x hm =>
      { hm with
        connections := hm.connections.push hconnection
        parts := { hm.parts with information := hm.parts.information } }
  · refine
      { hframe with
        connection := ⟨fun hnil => ?_, fun x hx => ?_⟩
        parts := { hframe.parts with information := hframe.parts.information } }
    · exact absurd hnil (List.append_ne_nil_of_right_ne_nil _ (List.cons_ne_nil _ _))
    · have hlast : (d.session.connections ++ [(a, b, c)]).getLast? = some x := hx
      rw [List.getLast?_concat] at hlast
      obtain rfl := Option.some.inj hlast
      exact hconnection

theorem adds_bandwidth {a b : List UInt8} (h : SessionShows sdp d)
    (hwf : (Line.bandwidth a b).WellFormed)
    (hat : At sdp.text ((Line.bandwidth a b).body ++ cr :: lf :: rest)) :
    Adds (parseBandwidth sdp) rest (d.add (.bandwidth a b)) := by
  have houtcome := parseBandwidth_outcome hat h.mediaOk
  simp only [Line.body, nameAt_withColon hwf.1, afterColon_withColon hwf.1, Option.getD_some,
    restAt_value hwf.2, afterRest_value hwf.2] at houtcome
  obtain ⟨sdp', hparse, v, pa, pb, hclosed, hrecord⟩ := houtcome.of_some (lineEnd_crlf rest)
  have hpoints := hclosed.points
  simp only [List.forall₂_cons] at hpoints
  obtain ⟨hpa, hpb, -⟩ := hpoints
  have hframe := h.frame hclosed.frame
  apply adds_record hparse rfl hframe hclosed.rest hrecord rfl
  · exact fun m x hm =>
      { hm with
        parts := { hm.parts with bandwidths := hm.parts.bandwidths.push ⟨hpa, hpb⟩ } }
  · exact
      { hframe with
        parts := { hframe.parts with bandwidths := hframe.parts.bandwidths.push ⟨hpa, hpb⟩ } }

theorem adds_encryption {a : List UInt8} {key : Option (List UInt8)} (h : SessionShows sdp d)
    (hwf : (Line.encryption a key).WellFormed)
    (hat : At sdp.text ((Line.encryption a key).body ++ cr :: lf :: rest)) :
    Adds (parseEncryption sdp) rest (d.add (.encryption a key)) := by
  have houtcome := parseEncryption_outcome hat h.mediaOk
  simp only [Line.body, nameAt_withColon hwf.1, afterColon_withColon hwf.1,
    restAt_value hwf.2, afterRest_value hwf.2] at houtcome
  obtain ⟨sdp', hparse, v, pa, pb, hclosed, hrecord⟩ := houtcome.of_some (lineEnd_crlf rest)
  have hpoints := hclosed.points
  simp only [List.forall₂_cons] at hpoints
  obtain ⟨hpa, hpb, -⟩ := hpoints
  have hframe := h.frame hclosed.frame
  have hencryption : ∀ x ∈ some (a, key.getD []), PairShows v (some pa.ptr) (some pb.ptr) x := by
    intro x hx
    obtain rfl := Option.some.inj hx
    exact ⟨hpa, hpb⟩
  apply adds_record hparse rfl hframe hclosed.rest hrecord rfl
  · exact fun m x hm =>
      { hm with
        parts := { hm.parts with encryption := ⟨fun hnone => (nomatch hnone), hencryption⟩ } }
  · exact
      { hframe with
        parts :=
          { hframe.parts with encryption := ⟨fun hnone => (nomatch hnone), hencryption⟩ } }

theorem adds_attribute {a : List UInt8} {value : Option (List UInt8)} (h : SessionShows sdp d)
    (hwf : (Line.attribute a value).WellFormed)
    (hat : At sdp.text ((Line.attribute a value).body ++ cr :: lf :: rest)) :
    Adds (parseAttribute sdp) rest (d.add (.attribute a value)) := by
  have houtcome := parseAttribute_outcome hat h.mediaOk
  simp only [Line.body, nameAt_withColon hwf.1, afterColon_withColon hwf.1,
    restAt_value hwf.2, afterRest_value hwf.2] at houtcome
  obtain ⟨sdp', hparse, v, pa, pb, hclosed, hrecord⟩ := houtcome.of_some (lineEnd_crlf rest)
  have hpoints := hclosed.points
  simp only [List.forall₂_cons] at hpoints
  obtain ⟨hpa, hpb, -⟩ := hpoints
  have hframe := h.frame hclosed.frame
  apply adds_record hparse rfl hframe hclosed.rest hrecord rfl
  · exact fun m x hm =>
      { hm with
        parts := { hm.parts with attributes := hm.parts.attributes.push ⟨hpa, hpb⟩ } }
  · exact
      { hframe with
        parts := { hframe.parts with attributes := hframe.parts.attributes.push ⟨hpa, hpb⟩ } }

/-! ## Whole descriptions -/

theorem adds_line {line : Line} (h : SessionShows sdp d)
    (hwf : line.WellFormed) (huri : line.uri? ≠ none → d.uri = none)
    (hat : At sdp.text (line.render ++ rest)) {fuel : Nat} (hfuel : 2 ≤ fuel) :
    Adds (parseLine fuel sdp) rest (d.add line) := by
  obtain ⟨t, hbody, hraw, hle, -, hparse⟩ := parseLine_head hat (lineHead_render hwf rest)
  have hframe : Frame sdp.text t :=
    ⟨congrArg List.length hraw, by omega, fun i _ => by rw [hraw]⟩
  have hshows := h.frame hframe
  rw [hparse]
  cases line with
  | version digits => exact adds_version hshows hwf hbody
  | origin a b c e f g => exact adds_origin hshows hwf hbody
  | name w => exact adds_name hshows hwf hbody
  | information w => exact adds_information hshows hwf hbody
  | uri w => exact adds_uri hshows hwf hbody (huri (fun hnone => nomatch hnone))
  | email w => exact adds_email hshows hwf hbody
  | phone w => exact adds_phone hshows hwf hbody
  | y w => exact adds_y hshows hwf hbody
  | connection a b c => exact adds_connection hshows hwf hbody
  | timing a b => exact adds_timing hshows hwf hbody
  | bandwidth a b => exact adds_bandwidth hshows hwf hbody
  | encryption a key => exact adds_encryption hshows hwf hbody
  | «attribute» a value => exact adds_attribute hshows hwf hbody
  | media m => exact adds_media hshows hwf hbody hfuel

theorem shows_nothing (t : Text) : SessionShows { text := t } (describe []) where
  version := rfl
  origin := ⟨fun _ => rfl, fun _ hx => nomatch hx⟩
  name := rfl
  uri := rfl
  y := rfl
  emails := .empty
  phones := .empty
  timings := .empty
  connection := ⟨fun _ => rfl, fun _ hx => nomatch hx⟩
  parts :=
    { information := rfl
      bandwidths := .empty
      encryption := ⟨fun _ => rfl, fun _ hx => nomatch hx⟩
      attributes := .empty }
  medias := .empty

end GbStream.Sdp
