import GbStream.Sdp.Runs
import GbStream.Sdp.WellFormed

/-!
# Accessors on well-formed descriptions

`sdp_parse` succeeds on the text of any well-formed lines, and the accessors return what
the lines say.
-/

namespace GbStream.Sdp

open Support Support.CString

variable {t : Text} {sdp : Session} {d : Description}

/-! ## Parsing all lines -/

theorem opensLine_render (line : Line) (xs : List UInt8) : OpensLine (line.render ++ xs) := by
  rw [render_append]
  apply OpensLine.mk
  cases line <;> simp [Line.letter, eol, cr, lf, byte]

theorem not_opensLine_nil : ¬ OpensLine [] := fun hopens => nomatch hopens

theorem parseLines_shows {tail : List UInt8} (htail : ¬ OpensLine tail) {fuel : Nat}
    (hfuel : 2 ≤ fuel) (lines : List Line) :
    ∀ {sdp : Session} (before : List Line) (rounds : Nat), SessionShows sdp (describe before) →
      At sdp.text (render lines ++ tail) → (∀ line ∈ lines, line.WellFormed) →
      ((before ++ lines).filterMap Line.uri?).length ≤ 1 → lines.length < rounds →
      ∃ sdp', parseLines fuel rounds sdp = .ok sdp' ∧
        SessionShows sdp' (describe (before ++ lines)) := by
  induction lines with
  | nil =>
      intro sdp before rounds h hat _ _ hrounds
      obtain ⟨rounds, rfl⟩ := Nat.exists_eq_add_of_le' hrounds
      rw [List.append_nil]
      exact ⟨sdp, parseLines_end hat htail, h⟩
  | cons line lines ih =>
      intro sdp before rounds h hat hwf huri hrounds
      obtain ⟨rounds, rfl⟩ := Nat.exists_eq_add_of_le' (Nat.zero_lt_of_lt hrounds)
      have happend : render (line :: lines) ++ tail = line.render ++ (render lines ++ tail) := by
        rw [render, List.flatMap_cons, List.append_assoc, render]
      rw [happend] at hat
      have hfirst : line.uri? ≠ none → (describe before).uri = none := by
        intro hne
        obtain ⟨w, hw⟩ := Option.ne_none_iff_exists'.mp hne
        have hbefore : before.filterMap Line.uri? = [] := by
          rw [List.filterMap_append, List.filterMap_cons_some hw, List.length_append,
            List.length_cons] at huri
          exact List.eq_nil_of_length_eq_zero (by omega)
        simp only [describe, hbefore, List.getLast?_nil]
      obtain ⟨sdp', hline, hat', hshows⟩ :=
        adds_line h (hwf line (List.mem_cons_self ..)) hfirst hat hfuel
      rw [parseLines_line hat (opensLine_render line _), hline]
      rw [← describe_concat] at hshows
      have hbefore : before ++ line :: lines = before ++ [line] ++ lines := by simp
      rw [hbefore] at huri ⊢
      apply ih (before ++ [line]) rounds hshows hat' _ huri
      · exact Nat.lt_of_succ_lt_succ hrounds
      · exact fun l hl => hwf l (List.mem_cons_of_mem _ hl)

/-! ## Reading the object -/

/-- The string that a pointer of the object points to. -/
def Session.string (sdp : Session) (ptr : Nat) : List UInt8 := stringAt sdp.text.raw ptr

theorem Points.string {p : Option Nat} {w : List UInt8} (h : Points sdp.text p w) :
    p.map sdp.string = some w := by
  obtain ⟨ptr, rfl, hshown⟩ := h
  exact congrArg some (stringAt_eq hshown.isString)

theorem MayPoint.string {p : Option Nat} {w? : Option (List UInt8)}
    (h : MayPoint sdp.text p w?) : p.map sdp.string = w? := by
  cases w? with
  | none =>
      obtain rfl : p = none := h
      rfl
  | some w => exact Points.string h

theorem SessionShows.getMedia (h : SessionShows sdp d) (i : Nat) :
    (sdpGetMedia sdp i = none ∧ d.medias[i]? = none) ∨
      ∃ m x, sdpGetMedia sdp i = some m ∧ d.medias[i]? = some x ∧ MediaShows sdp.text m x := by
  have hcount := h.medias.count
  by_cases hi : i ≥ sdp.m.count
  · exact .inl ⟨if_pos hi, List.getElem?_eq_none (by omega)⟩
  · obtain ⟨x, hx⟩ : ∃ x, d.medias[i]? = some x :=
      ⟨_, List.getElem?_eq_getElem (by omega)⟩
    obtain ⟨m, hm, hshows⟩ := h.medias.entry i x hx
    exact .inr ⟨m, x, by rw [sdpGetMedia, if_neg hi, hm], hx, hshows⟩

theorem SessionShows.mediaString (h : SessionShows sdp d) {p : Media → Option Nat}
    {w : MediaLine → List UInt8}
    (hp : ∀ m x, MediaShows sdp.text m x → Points sdp.text (p m) (w x.1)) (i : Nat) :
    ((sdpGetMedia sdp i).bind p).map sdp.string = d.medias[i]?.map fun x => w x.1 := by
  rcases h.getMedia i with ⟨hnone, hd⟩ | ⟨m, x, hsome, hd, hshows⟩
  · rw [hnone, hd]
    rfl
  · rw [hsome, hd]
    exact (hp m x hshows).string

def Session.PairIs (sdp : Session) (p q : Option Nat) (x : List UInt8 × List UInt8) : Prop :=
  p.map sdp.string = some x.1 ∧ q.map sdp.string = some x.2

theorem PairShows.pairIs {p q : Option Nat} {x : List UInt8 × List UInt8}
    (h : PairShows sdp.text p q x) : sdp.PairIs p q x :=
  ⟨h.1.string, h.2.string⟩

theorem attributeAt_string {a : Growable Attribute 5} {xs : List (List UInt8 × List UInt8)}
    (h : a.Shows (fun a x => sdp.PairIs a.name a.value x) xs) (name : List UInt8)
    {i : Nat} {x : List UInt8 × List UInt8} (hx : xs[i]? = some x) :
    (attributeAt sdp.text.raw a name i).map (Option.map sdp.string) =
      ([x].lookup name).map some := by
  obtain ⟨b, hb, hname, hvalue⟩ := h.entry i x hx
  obtain ⟨n', v⟩ := b
  obtain ⟨n, rfl, hstring⟩ := Option.map_eq_some_iff.mp hname
  rw [Session.string] at hstring
  rw [attributeAt, hb]
  dsimp only
  by_cases heq : x.1 = name
  · subst heq
    rw [if_pos hstring, List.lookup_cons_self]
    exact congrArg some hvalue
  · have hbeq : (name == x.1) = false := beq_eq_false_iff_ne.mpr (Ne.symm heq)
    rw [hstring, if_neg heq, List.lookup_cons, hbeq]
    rfl

theorem attributeFind_string {a : Growable Attribute 5} {xs : List (List UInt8 × List UInt8)}
    (h : a.Shows (fun a x => sdp.PairIs a.name a.value x) xs) (name : List UInt8) :
    (attributeFind sdp.text.raw a name).map sdp.string = xs.lookup name := by
  have hrounds : ∀ n, n ≤ xs.length →
      ((List.range n).findSome? (attributeAt sdp.text.raw a name)).map (Option.map sdp.string) =
        ((xs.take n).lookup name).map some := by
    intro n
    induction n with
    | zero => exact fun _ => rfl
    | succ n ih =>
        intro hn
        have hx : xs[n]? = some xs[n] := List.getElem?_eq_getElem (by omega)
        have hround := attributeAt_string h name hx
        rw [List.range_succ, List.findSome?_append, List.take_add_one, hx, Option.toList_some,
          List.lookup_append, Option.map_or, Option.map_or, ih (by omega), ← hround]
        simp
  have hall := hrounds _ (Nat.le_refl _)
  rw [List.take_length, ← h.count] at hall
  rw [attributeFind]
  generalize (List.range a.count).findSome? (attributeAt sdp.text.raw a name) = found at hall ⊢
  cases found with
  | none =>
      rw [Option.map_none, eq_comm, Option.map_eq_none_iff] at hall
      exact hall.symm
  | some value =>
      rw [Option.map_some, eq_comm, Option.map_eq_some_iff] at hall
      obtain ⟨w, hw, hvalue⟩ := hall
      exact hvalue.symm.trans hw.symm

/-- What the accessors return. -/
structure Understood (sdp : Session) (d : Description) : Prop where
  mediaCount : sdpMediaCount sdp = d.medias.length
  mediaType : ∀ i, (sdpMediaType sdp i).map sdp.string = d.medias[i]?.map fun x => x.1.media
  mediaPort : ∀ i, ((sdpGetMedia sdp i).bind Media.port).map sdp.string =
    d.medias[i]?.map fun x => x.1.port
  mediaProto : ∀ i, (sdpMediaProto sdp i).map sdp.string = d.medias[i]?.map fun x => x.1.proto
  /-- The first attribute of the name, of the session or of a media. -/
  attributeFind : ∀ name,
    (sdpAttributeFind sdp name).map sdp.string = d.session.attributes.lookup name
  mediaAttributeFind : ∀ i name, (sdpMediaAttributeFind sdp i name).map sdp.string =
    d.medias[i]?.bind fun x => x.2.attributes.lookup name
  originGet : (sdpOriginGet sdp).map (fun (a, b, c, e, f, g) =>
    (sdp.string a, sdp.string b, sdp.string c, sdp.string e, sdp.string f, sdp.string g)) =
    d.origin
  connectionGet : (sdpConnectionGet sdp).map (fun (a, b, c) =>
    (sdp.string a, sdp.string b, sdp.string c)) = d.session.connections.getLast?
  yGet : (sdpYGet sdp).map sdp.string = d.y
  /-- Everything that is recorded, section by section and in order. -/
  shows : SessionShows sdp d

theorem SessionShows.understood (h : SessionShows sdp d) : Understood sdp d where
  mediaCount := h.medias.count
  mediaType := h.mediaString fun _ _ hm => hm.media
  mediaPort := h.mediaString fun _ _ hm => hm.port
  mediaProto := h.mediaString fun _ _ hm => hm.proto
  attributeFind := attributeFind_string (h.parts.attributes.imp fun _ _ hpair => hpair.pairIs)
  mediaAttributeFind := fun i name => by
    rcases h.getMedia i with ⟨hnone, hd⟩ | ⟨m, x, hsome, hd, hshows⟩
    · rw [sdpMediaAttributeFind, hnone, hd]
      rfl
    · rw [sdpMediaAttributeFind, hsome, hd]
      exact attributeFind_string (hshows.parts.attributes.imp fun _ _ hpair => hpair.pairIs) name
  originGet := by
    cases hd : d.origin with
    | none =>
        rw [sdpOriginGet, h.origin.1 hd]
        rfl
    | some x =>
        obtain ⟨⟨a, ha, ha'⟩, ⟨b, hb, hb'⟩, ⟨c, hc, hc'⟩, ⟨e, he, he'⟩, ⟨f, hf, hf'⟩,
          ⟨g, hg, hg'⟩⟩ := h.origin.2 x hd
        have hget : sdpOriginGet sdp = some (a, b, c, e, f, g) := by
          rw [sdpOriginGet, ha, hb, hc, he, hf, hg]
          rfl
        rw [hget]
        simp only [Option.map_some, Session.string, stringAt_eq ha'.isString,
          stringAt_eq hb'.isString, stringAt_eq hc'.isString, stringAt_eq he'.isString,
          stringAt_eq hf'.isString, stringAt_eq hg'.isString]
  connectionGet := by
    cases hd : d.session.connections.getLast? with
    | none =>
        rw [sdpConnectionGet, h.connection.1 (List.getLast?_eq_none_iff.mp hd)]
        rfl
    | some x =>
        obtain ⟨⟨a, ha, ha'⟩, ⟨b, hb, hb'⟩, ⟨c, hc, hc'⟩⟩ := h.connection.2 x hd
        have hget : sdpConnectionGet sdp = some (a, b, c) := by
          rw [sdpConnectionGet, ha, hb, hc]
          rfl
        rw [hget]
        simp only [Option.map_some, Session.string, stringAt_eq ha'.isString,
          stringAt_eq hb'.isString, stringAt_eq hc'.isString]
  yGet := h.y.string
  shows := h

theorem sdpParse_front {tail : List UInt8} (htail : ¬ OpensLine tail) {lines : List Line}
    (hwf : ∀ line ∈ lines, line.WellFormed) (huri : (lines.filterMap Line.uri?).length ≤ 1)
    {s : List UInt8} (hs : stringAt s 0 = render lines ++ tail) {fuel : Nat}
    (hfuel : lines.length + 2 ≤ fuel) :
    ∃ sdp, sdpParse fuel s = .ok sdp ∧ Understood sdp (describe lines) := by
  have hat : At { raw := strdup s, offset := 0 } (render lines ++ tail) :=
    hs ▸ (stands_first s (Nat.le_refl _)).rest
  have htwo : 2 ≤ fuel := by omega
  obtain ⟨sdp, hparse, hshows⟩ := parseLines_shows htail htwo lines [] fuel
    (shows_nothing { raw := strdup s, offset := 0 }) hat hwf huri (by omega)
  exact ⟨sdp, hparse, hshows.understood⟩

/-- Well-formed descriptions are understood. -/
theorem sdpParse_wellFormed (lines : List Line) (hwf : ∀ line ∈ lines, line.WellFormed)
    (huri : (lines.filterMap Line.uri?).length ≤ 1) (s : List UInt8)
    (hs : stringAt s 0 = render lines) (fuel : Nat) (hfuel : lines.length + 2 ≤ fuel) :
    ∃ sdp, sdpParse fuel s = .ok sdp ∧ Understood sdp (describe lines) := by
  rw [← List.append_nil (render lines)] at hs
  exact sdpParse_front not_opensLine_nil hwf huri hs hfuel

/-- The description of a live stream. -/
def playLines : List Line :=
  [.version (ascii "0"),
    .origin (ascii "34020000001320000001") (ascii "0") (ascii "0") (ascii "IN") (ascii "IP4")
      (ascii "192.168.1.2"),
    .name (ascii "Play"), .connection (ascii "IN") (ascii "IP4") (ascii "192.168.1.2"),
    .timing (ascii "0") (ascii "0"),
    .media ⟨ascii "video", ascii "6000", ascii "RTP/AVP", [ascii "96", ascii "98"]⟩,
    .attribute (ascii "recvonly") none, .attribute (ascii "rtpmap") (some (ascii "96 PS/90000")),
    .y (ascii "0100000001")]

theorem sdpParse_wellFormed_play :
    (∀ line ∈ playLines, line.WellFormed) ∧
      ∃ sdp, sdpParse 16 (render playLines ++ [0]) = .ok sdp ∧
        Understood sdp (describe playLines) :=
  ⟨by decide, sdpParse_wellFormed playLines (by decide) (by decide) (render playLines ++ [0])
    (by decide +kernel) 16 (by decide)⟩

/-- A second `i=` line, or a second `c=` line of the session, replaces the first. -/
theorem sdpParse_replaces :
    (∃ sdp, sdpParse 16 (ascii "i=a\r\ni=b\r\n" ++ [0]) = .ok sdp ∧ sdp.m.count = 0 ∧
      sdp.i.map sdp.string = some (ascii "b")) ∧
      ∃ sdp, sdpParse 16 (ascii "c=IN IP4 1.1.1.1\r\nc=IN IP4 2.2.2.2\r\n" ++ [0]) = .ok sdp ∧
        sdp.m.count = 0 ∧ sdp.c.address.map sdp.string = some (ascii "2.2.2.2") :=
  ⟨⟨_, rfl, rfl, rfl⟩, ⟨_, rfl, rfl, rfl⟩⟩

end GbStream.Sdp
