import GbStream.Sdp.Runs

/-!
# What an accepted line changes

Each parser writes tokens into its own fields of the session object and leaves the others
alone.  `Change` says so once for every kind of line, whatever the text is; what holds of the
object behind all lines follows by induction over the lines that are accepted.
-/

namespace GbStream.Sdp

open Support Support.CString

theorem bind_eq_ok {ε α β : Type} {r : Except ε α} {f : α → Except ε β} {b : β} :
    (r >>= f) = .ok b ↔ ∃ a, r = .ok a ∧ f a = .ok b := by
  cases r with
  | error e =>
      constructor
      · exact fun h => nomatch h
      · exact fun ⟨_, h, _⟩ => nomatch h
  | ok a =>
      constructor
      · exact fun h => ⟨a, rfl, h⟩
      · rintro ⟨_, heq, h⟩
        obtain rfl := Except.ok.inj heq
        exact h

/-! ## One line -/

/-- What a line finds that goes to the last media, or to the session while there is none. -/
inductive Recorded
  | information (i : Nat)
  | connection (network addrtype address : Nat)
  | bandwidth (bwtype value : Nat)
  | encryption (method key : Nat)
  | attribute (name value : Nat)

namespace Recorded

def kind : Recorded → LineKind
  | .information _ => .i
  | .connection .. => .c
  | .bandwidth .. => .b
  | .encryption .. => .k
  | .attribute .. => .a

def onMedia (m : Media) : Recorded → Media
  | .information i => { m with i := some i }
  | .connection network addrtype address =>
      { m with c := m.c.push ⟨some network, some addrtype, some address⟩ }
  | .bandwidth bwtype value => { m with b := m.b.push ⟨some bwtype, some value⟩ }
  | .encryption method key => { m with k := ⟨some method, some key⟩ }
  | .attribute name value => { m with a := m.a.push ⟨some name, some value⟩ }

def onSession (sdp : Session) : Recorded → Session
  | .information i => { sdp with i := some i }
  | .connection network addrtype address =>
      { sdp with c := ⟨some network, some addrtype, some address⟩ }
  | .bandwidth bwtype value => { sdp with b := sdp.b.push ⟨some bwtype, some value⟩ }
  | .encryption method key => { sdp with k := ⟨some method, some key⟩ }
  | .attribute name value => { sdp with a := sdp.a.push ⟨some name, some value⟩ }

end Recorded

inductive Effect
  | version (v : Int)
  | origin (a b c d e f : Nat)
  | name (s : Nat)
  | y (i : Nat)
  | uri (u : Nat)
  | email (e : Nat)
  | phone (p : Nat)
  | timing (start stop : Nat)
  | recorded (r : Recorded)

namespace Effect

def kind : Effect → LineKind
  | .version _ => .v
  | .origin .. => .o
  | .name _ => .s
  | .y _ => .y
  | .uri _ => .u
  | .email _ => .e
  | .phone _ => .p
  | .timing .. => .t
  | .recorded r => r.kind

def apply (sdp : Session) : Effect → Except Stop Session
  | .version v => .ok { sdp with v }
  | .origin a b c d e f =>
      .ok { sdp with o := ⟨some a, some b, some c, ⟨some d, some e, some f⟩⟩ }
  | .name s => .ok { sdp with s := some s }
  | .y i => .ok { sdp with y := some i }
  | .uri u => .ok { sdp with u := some u }
  | .email e => .ok { sdp with e := sdp.e.push (some e) }
  | .phone p => .ok { sdp with p := sdp.p.push (some p) }
  | .timing start stop =>
      .ok { sdp with t := sdp.t.push ⟨some start, some stop, .empty, .empty⟩ }
  | .recorded r => sdp.record r.onMedia r.onSession

end Effect

variable {t : Text} {sdp sdp' : Session} {ctx : Context} {kind : LineKind}
  {xs rest : List UInt8} {fuel : Nat}

inductive Change (sdp : Session) : LineKind → Session → Prop
  | plain (text : Text) (effect : Effect) {sdp' : Session}
      (h : effect.apply { sdp with text } = .ok sdp') : Change sdp effect.kind sdp'
  | repeats (text : Text) (timing : Timing) (r : Repeat) (last : sdp.lastTiming = .ok timing) :
      Change sdp .r
        { sdp with
          text
          t := sdp.t.set (sdp.t.count - 1) { timing with r := timing.r.push r } }
  | timezone (text : Text) (timing timing' : Timing) (last : sdp.lastTiming = .ok timing) :
      Change sdp .z { sdp with text, t := sdp.t.set (sdp.t.count - 1) timing' }
  | media (text : Text) (media port proto : Nat) (fmt : Growable (Option Nat) 5) :
      Change sdp .m
        { sdp with
          text
          m :=
            sdp.m.push
              { (default : Media) with
                media := some media, port := some port, proto := some proto, fmt } }

def Plain (sdp : Session) (kind : LineKind) (sdp' : Session) : Prop :=
  ∃ (text : Text) (effect : Effect), effect.kind = kind ∧ effect.apply { sdp with text } = .ok sdp'

theorem Plain.change (h : Plain sdp kind sdp') : Change sdp kind sdp' := by
  obtain ⟨text, effect, rfl, happly⟩ := h
  exact .plain text effect happly

theorem parseVersion_plain (h : parseVersion sdp = .ok sdp') : Plain sdp .v sdp' := by
  obtain ⟨t, -, h⟩ := bind_eq_ok.mp h
  split at h
  · cases h
  · obtain ⟨u, -, h⟩ := bind_eq_ok.mp h
    exact ⟨_, .version _, rfl, h⟩

theorem parseOrigin_plain (h : parseOrigin sdp = .ok sdp') : Plain sdp .o sdp' := by
  obtain ⟨⟨a, t⟩, -, h⟩ := bind_eq_ok.mp h
  obtain ⟨⟨b, t⟩, -, h⟩ := bind_eq_ok.mp h
  obtain ⟨⟨c, t⟩, -, h⟩ := bind_eq_ok.mp h
  obtain ⟨⟨d, t⟩, -, h⟩ := bind_eq_ok.mp h
  obtain ⟨⟨e, t⟩, -, h⟩ := bind_eq_ok.mp h
  obtain ⟨⟨f, t⟩, -, h⟩ := bind_eq_ok.mp h
  obtain ⟨u, -, h⟩ := bind_eq_ok.mp h
  split at h
  · obtain ⟨v, -, h⟩ := bind_eq_ok.mp h
    exact ⟨_, .origin a.ptr b.ptr c.ptr d.ptr e.ptr f.ptr, rfl, h⟩
  · cases h

theorem parseSession_plain (h : parseSession sdp = .ok sdp') : Plain sdp .s sdp' := by
  obtain ⟨⟨s, t⟩, -, h⟩ := bind_eq_ok.mp h
  exact ⟨_, .name s.ptr, rfl, h⟩

theorem parseY_plain (h : parseY sdp = .ok sdp') : Plain sdp .y sdp' := by
  obtain ⟨⟨y, t⟩, -, h⟩ := bind_eq_ok.mp h
  exact ⟨_, .y y.ptr, rfl, h⟩

theorem parseInformation_plain (h : parseInformation sdp = .ok sdp') : Plain sdp .i sdp' := by
  obtain ⟨⟨i, t⟩, -, h⟩ := bind_eq_ok.mp h
  exact ⟨_, .recorded (.information i.ptr), rfl, h⟩

theorem parseUri_plain (h : parseUri sdp = .ok sdp') : Plain sdp .u sdp' := by
  unfold parseUri at h
  split at h
  · cases h
  · obtain ⟨⟨u, t⟩, -, h⟩ := bind_eq_ok.mp h
    exact ⟨_, .uri u.ptr, rfl, h⟩

theorem parseEmail_plain (h : parseEmail sdp = .ok sdp') : Plain sdp .e sdp' := by
  obtain ⟨⟨e, t⟩, -, h⟩ := bind_eq_ok.mp h
  exact ⟨_, .email e.ptr, rfl, h⟩

theorem parsePhone_plain (h : parsePhone sdp = .ok sdp') : Plain sdp .p sdp' := by
  obtain ⟨⟨p, t⟩, -, h⟩ := bind_eq_ok.mp h
  obtain ⟨u, -, h⟩ := bind_eq_ok.mp h
  obtain ⟨p', -, h⟩ := bind_eq_ok.mp h
  obtain ⟨v, -, h⟩ := bind_eq_ok.mp h
  exact ⟨_, .phone p'.ptr, rfl, h⟩

theorem parseConnection_plain (h : parseConnection sdp = .ok sdp') : Plain sdp .c sdp' := by
  obtain ⟨⟨a, t⟩, -, h⟩ := bind_eq_ok.mp h
  obtain ⟨⟨b, t⟩, -, h⟩ := bind_eq_ok.mp h
  obtain ⟨⟨c, t⟩, -, h⟩ := bind_eq_ok.mp h
  obtain ⟨u, -, h⟩ := bind_eq_ok.mp h
  split at h
  · obtain ⟨v, -, h⟩ := bind_eq_ok.mp h
    exact ⟨_, .recorded (.connection a.ptr b.ptr c.ptr), rfl, h⟩
  · cases h

theorem parseBandwidth_plain (h : parseBandwidth sdp = .ok sdp') : Plain sdp .b sdp' := by
  obtain ⟨⟨a, b, t⟩, -, h⟩ := bind_eq_ok.mp h
  exact ⟨_, .recorded (.bandwidth a.ptr b.ptr), rfl, h⟩

theorem parseTiming_plain (h : parseTiming sdp = .ok sdp') : Plain sdp .t sdp' := by
  obtain ⟨⟨a, t⟩, -, h⟩ := bind_eq_ok.mp h
  obtain ⟨⟨b, t⟩, -, h⟩ := bind_eq_ok.mp h
  obtain ⟨u, -, h⟩ := bind_eq_ok.mp h
  obtain ⟨v, -, h⟩ := bind_eq_ok.mp h
  exact ⟨_, .timing a.ptr b.ptr, rfl, h⟩

theorem parseRepeat_change (h : parseRepeat fuel sdp = .ok sdp') : Change sdp .r sdp' := by
  unfold parseRepeat at h
  split at h
  · cases h
  · obtain ⟨timing, hlast, h⟩ := bind_eq_ok.mp h
    obtain ⟨⟨a, t⟩, -, h⟩ := bind_eq_ok.mp h
    obtain ⟨⟨b, t⟩, -, h⟩ := bind_eq_ok.mp h
    obtain ⟨⟨t, offset, offsets⟩, -, h⟩ := bind_eq_ok.mp h
    obtain ⟨u, -, h⟩ := bind_eq_ok.mp h
    obtain ⟨v, -, h⟩ := bind_eq_ok.mp h
    obtain ⟨⟨w, offsets'⟩, -, h⟩ := bind_eq_ok.mp h
    obtain rfl := Except.ok.inj h
    exact .repeats _ _ _ hlast

theorem parseTimezone_change (h : parseTimezone fuel sdp = .ok sdp') : Change sdp .z sdp' := by
  unfold parseTimezone at h
  split at h
  · cases h
  · obtain ⟨timing, hlast, h⟩ := bind_eq_ok.mp h
    obtain ⟨⟨t, timing'⟩, -, h⟩ := bind_eq_ok.mp h
    obtain ⟨u, -, h⟩ := bind_eq_ok.mp h
    obtain rfl := Except.ok.inj h
    exact .timezone _ _ _ hlast

theorem parseEncryption_plain (h : parseEncryption sdp = .ok sdp') : Plain sdp .k sdp' := by
  obtain ⟨⟨a, b, t⟩, -, h⟩ := bind_eq_ok.mp h
  exact ⟨_, .recorded (.encryption a.ptr b.ptr), rfl, h⟩

theorem parseAttribute_plain (h : parseAttribute sdp = .ok sdp') : Plain sdp .a sdp' := by
  obtain ⟨⟨a, b, t⟩, -, h⟩ := bind_eq_ok.mp h
  exact ⟨_, .recorded (.attribute a.ptr b.ptr), rfl, h⟩

theorem parseMedia_change (h : parseMedia fuel sdp = .ok sdp') : Change sdp .m sdp' := by
  obtain ⟨⟨a, t⟩, -, h⟩ := bind_eq_ok.mp h
  obtain ⟨⟨b, t⟩, -, h⟩ := bind_eq_ok.mp h
  obtain ⟨⟨c, t⟩, -, h⟩ := bind_eq_ok.mp h
  obtain ⟨⟨fmt, t⟩, -, h⟩ := bind_eq_ok.mp h
  obtain ⟨⟨fmt, t, formats⟩, -, h⟩ := bind_eq_ok.mp h
  obtain ⟨u, -, h⟩ := bind_eq_ok.mp h
  obtain ⟨v, -, h⟩ := bind_eq_ok.mp h
  dsimp only at h
  split at h
  · obtain ⟨w, -, h⟩ := bind_eq_ok.mp h
    obtain rfl := Except.ok.inj h
    exact .media _ _ _ _ _
  · obtain rfl := Except.ok.inj h
    exact .media _ _ _ _ _

theorem parseBody_plain (hkind : kind ≠ .r ∧ kind ≠ .z ∧ kind ≠ .m)
    (h : parseBody fuel sdp kind = .ok sdp') : Plain sdp kind sdp' := by
  cases kind with
  | v => exact parseVersion_plain h
  | o => exact parseOrigin_plain h
  | s => exact parseSession_plain h
  | i => exact parseInformation_plain h
  | u => exact parseUri_plain h
  | e => exact parseEmail_plain h
  | p => exact parsePhone_plain h
  | c => exact parseConnection_plain h
  | b => exact parseBandwidth_plain h
  | t => exact parseTiming_plain h
  | k => exact parseEncryption_plain h
  | a => exact parseAttribute_plain h
  | y => exact parseY_plain h
  | r => exact absurd rfl hkind.1
  | z => exact absurd rfl hkind.2.1
  | m => exact absurd rfl hkind.2.2

theorem parseBody_change (kind : LineKind) (h : parseBody fuel sdp kind = .ok sdp') :
    Change sdp kind sdp' := by
  cases kind with
  | r => exact parseRepeat_change h
  | z => exact parseTimezone_change h
  | m => exact parseMedia_change h
  | v | o | s | i | u | e | p | c | b | t | k | a | y =>
      exact (parseBody_plain (by decide) h).change

theorem Change.of_text (h : Change { sdp with text := t } kind sdp') : Change sdp kind sdp' := by
  cases h with
  | plain text effect happly => exact .plain text effect happly
  | repeats text timing r last => exact .repeats text timing r last
  | timezone text timing timing' last => exact .timezone text timing timing' last
  | media text media port proto fmt => exact .media text media port proto fmt

theorem get?_of_lastMedia {m : Media} (h : sdp.lastMedia = .ok m) :
    sdp.m.get? (sdp.m.count - 1) = some m := by
  unfold Session.lastMedia at h
  split at h
  · cases h
  · rename_i hget
    rwa [Except.ok.inj h] at hget

theorem get?_of_lastTiming {timing : Timing} (h : sdp.lastTiming = .ok timing) :
    sdp.t.get? (sdp.t.count - 1) = some timing := by
  unfold Session.lastTiming at h
  split at h
  · cases h
  · rename_i hget
    rwa [Except.ok.inj h] at hget

theorem record_cases {onMedia : Media → Media} {onSession : Session → Session}
    (h : sdp.record onMedia onSession = .ok sdp') :
    (0 < sdp.m.count ∧ ∃ m, sdp.lastMedia = .ok m ∧ sdp' = sdp.setLastMedia (onMedia m)) ∨
      sdp.m.count = 0 ∧ sdp' = onSession sdp := by
  unfold Session.record at h
  split at h
  · rename_i hcount
    obtain ⟨m, hlast, h⟩ := bind_eq_ok.mp h
    exact .inl ⟨hcount, m, hlast, (Except.ok.inj h).symm⟩
  · rename_i hcount
    exact .inr ⟨Nat.eq_zero_of_not_pos hcount, (Except.ok.inj h).symm⟩

/-! ## All lines -/

/-- The lines of a text that the parser reads and accepts, up to an empty line or the end of
the text: the letter of each and what follows its equals sign. -/
inductive Accepts : Context → List UInt8 → List (UInt8 × List UInt8) → Prop
  | done {ctx : Context} {xs : List UInt8} (h : ¬ OpensLine xs) : Accepts ctx xs []
  | line {ctx ctx' : Context} {xs rest : List UInt8} {line : UInt8 × List UInt8}
      {lines : List (UInt8 × List UInt8)} (hopens : OpensLine xs)
      (head : lineHead xs = .ok line) (hread : readLine ctx xs = .ok (ctx', rest))
      (h : Accepts ctx' rest lines) : Accepts ctx xs (line :: lines)

/-- The parser of a kind has read the body of a line, wherever the scanner stood before. -/
def BodyRead (sdp : Session) (body : List UInt8) (kind : LineKind) (sdp' : Session) : Prop :=
  ∃ t fuel, At t body ∧ 2 ≤ fuel ∧ parseBody fuel { sdp with text := t } kind = .ok sdp'

theorem BodyRead.change {body : List UInt8} (h : BodyRead sdp body kind sdp') :
    Change sdp kind sdp' := by
  obtain ⟨t, fuel, -, -, hbody⟩ := h
  exact (parseBody_change kind hbody).of_text

/-- The same from where the scanner stands, in front of the end of the text. -/
structure LineRead (sdp : Session) (body : List UInt8) (kind : LineKind) (sdp' : Session) :
    Prop where
  goesOn : ¬ At sdp.text []
  frame : Frame sdp.text sdp'.text
  body : ∃ t fuel, At t body ∧ Frame sdp.text t ∧ 2 ≤ fuel ∧
    parseBody fuel { sdp with text := t } kind = .ok sdp'

theorem LineRead.bodyRead {body : List UInt8} (h : LineRead sdp body kind sdp') :
    BodyRead sdp body kind sdp' := by
  obtain ⟨t, fuel, hat, -, hfuel, hbody⟩ := h.body
  exact ⟨t, fuel, hat, hfuel, hbody⟩

theorem not_at_nil (h : At t xs) (hopens : OpensLine xs) : ¬ At t [] := by
  intro hnil
  have hchar := h.char.symm.trans hnil.char
  exact h.goesOn hopens (.inl (Except.ok.inj hchar))

theorem parseLine_reads (h : At sdp.text xs) (hopens : OpensLine xs) (hfuel : 2 ≤ fuel)
    (hline : parseLine fuel sdp = .ok sdp') (hframe : Frame sdp.text sdp'.text)
    {line : UInt8 × List UInt8} (head : lineHead xs = .ok line) :
    ∃ kind, (line.1, kind) ∈ lineKinds ∧ LineRead sdp line.2 kind sdp' := by
  obtain ⟨c, body⟩ := line
  obtain ⟨t, hat, hraw, hle, -, hparse⟩ := parseLine_head h head
  have hframe' : Frame sdp.text t :=
    ⟨congrArg List.length hraw, Nat.le_trans (Nat.le_add_right ..) hle, fun i _ => by rw [hraw]⟩
  rw [hparse] at hline
  cases hkind : lineKinds.lookup c with
  | none =>
      rw [hkind] at hline
      cases hline
  | some kind =>
      rw [hkind] at hline
      exact ⟨kind, letter_of_lookup hkind, not_at_nil h hopens, hframe, t, fuel, hat, hframe',
        hfuel, hline⟩

theorem Stands.frame {rounds : Nat} (h : Stands sdp ctx xs fuel rounds) (hopens : OpensLine xs)
    (hline : parseLine fuel sdp = .ok sdp') : Frame sdp.text sdp'.text := by
  have hne : xs ≠ [] := by
    rintro rfl
    cases hopens
  have hrefines := parseLine_refines h.rest hne h.tracks h.fuel
  rw [hline] at hrefines
  generalize readLine ctx xs = read at hrefines
  cases hrefines with
  | stops hr => cases hr
  | leaves hr hat hframe htracks =>
      obtain rfl := Except.ok.inj hr
      have hskip : Frame sdp.text (sdp.text.advance 2) :=
        ⟨rfl, Nat.le_add_right .., fun _ _ => rfl⟩
      exact hskip.trans hframe

/-- What holds of the empty object and is kept by every line that is read holds of the object
that `sdp_parse` returns. -/
theorem parseLines_kept {P : List (UInt8 × List UInt8) → Session → Prop}
    (hstep : ∀ seen line kind sdp sdp', (line.1, kind) ∈ lineKinds → P seen sdp →
      LineRead sdp line.2 kind sdp' → P (seen ++ [line]) sdp')
    {lines : List (UInt8 × List UInt8)} (h : Accepts ctx xs lines) :
    ∀ {sdp : Session} {seen : List (UInt8 × List UInt8)} {rounds : Nat},
      Stands sdp ctx xs fuel rounds → P seen sdp →
      ∃ sdp', parseLines fuel rounds sdp = .ok sdp' ∧ P (seen ++ lines) sdp' := by
  induction h with
  | done hend =>
      intro sdp seen rounds hstands hP
      obtain ⟨rounds, rfl⟩ := Nat.exists_eq_add_of_le' (Nat.zero_lt_of_lt hstands.rounds)
      rw [List.append_nil]
      exact ⟨sdp, parseLines_end hstands.rest hend, hP⟩
  | @line ctx ctx' xs rest line lines hopens head hread _ ih =>
      intro sdp seen rounds hstands hP
      obtain ⟨rounds, rfl⟩ := Nat.exists_eq_add_of_le' (Nat.zero_lt_of_lt hstands.rounds)
      have hnext := hstands.line hopens
      rw [hread] at hnext
      obtain ⟨sdp₁, hline, hstands'⟩ := hnext
      have hfuel : 2 ≤ fuel := Nat.le_trans (Nat.le_add_left ..) hstands.fuel
      obtain ⟨kind, hkind, hreads⟩ :=
        parseLine_reads hstands.rest hopens hfuel hline (hstands.frame hopens hline) head
      obtain ⟨sdp₂, hrun, hP'⟩ := ih hstands' (hstep seen line kind sdp sdp₁ hkind hP hreads)
      rw [List.append_assoc, List.singleton_append] at hP'
      refine ⟨sdp₂, ?_, hP'⟩
      rw [parseLines_line hstands.rest hopens, hline, ok_bind, hrun]

/-- A text all of whose lines are read is accepted; else some line stops the parser. -/
theorem accepts_or_stops (rounds : Nat) :
    ∀ {sdp : Session} {ctx : Context} {xs : List UInt8}, Stands sdp ctx xs fuel rounds →
      (∃ lines, Accepts ctx xs lines) ∨ ∃ e, parseLines fuel rounds sdp = .error e := by
  induction rounds with
  | zero => exact fun hstands => absurd hstands.rounds (Nat.not_lt_zero _)
  | succ rounds ih =>
      intro sdp ctx xs hstands
      by_cases hopens : OpensLine xs
      · have hline := stands_line hstands hopens
        cases hread : readLine ctx xs with
        | error e =>
            rw [hread] at hline
            exact .inr ⟨e, hline⟩
        | ok r =>
            rw [hread] at hline
            obtain ⟨sdp', hrun, hstands'⟩ := hline
            rw [hrun]
            obtain ⟨line, head, -⟩ := bind_eq_ok.mp hread
            rcases ih hstands' with ⟨lines, haccepts⟩ | hstops
            · exact .inl ⟨line :: lines, .line hopens head hread haccepts⟩
            · exact .inr hstops
      · exact .inl ⟨[], .done hopens⟩

/-- `sdp_parse` returns a session for the texts all of whose lines are accepted, and what these
lines keep holds of it. -/
theorem sdpParse_kept {P : List (UInt8 × List UInt8) → Session → Prop} (s : List UInt8)
    (hempty : ∀ text, P [] { text })
    (hstep : ∀ seen line kind sdp sdp', (line.1, kind) ∈ lineKinds → P seen sdp →
      LineRead sdp line.2 kind sdp' → P (seen ++ [line]) sdp')
    {lines : List (UInt8 × List UInt8)} (h : Accepts {} (stringAt s 0) lines) (fuel : Nat)
    (hfuel : (stringAt s 0).length + 2 ≤ fuel) :
    ∃ sdp, sdpParse fuel s = .ok sdp ∧ P lines sdp :=
  parseLines_kept hstep h (stands_first s hfuel) (hempty _)

theorem sdpParse_invariant {P : List (UInt8 × List UInt8) → Session → Prop} (s : List UInt8)
    (hempty : ∀ text, P [] { text })
    (hstep : ∀ seen line kind sdp sdp', (line.1, kind) ∈ lineKinds → P seen sdp →
      BodyRead sdp line.2 kind sdp' → P (seen ++ [line]) sdp')
    {lines : List (UInt8 × List UInt8)} (h : Accepts {} (stringAt s 0) lines) (fuel : Nat)
    (hfuel : (stringAt s 0).length + 2 ≤ fuel) :
    ∃ sdp, sdpParse fuel s = .ok sdp ∧ P lines sdp :=
  sdpParse_kept s hempty (fun seen line kind sdp sdp' hkind hP hread =>
    hstep seen line kind sdp sdp' hkind hP hread.bodyRead) h fuel hfuel

theorem sdpParse_ok_accepts {s : List UInt8} (h : sdpParse fuel s = .ok sdp) :
    ∃ lines, Accepts {} (stringAt s 0) lines := by
  have hmore : sdpParse (fuel + (stringAt s 0).length + 2) s = .ok sdp := by
    rw [← h]
    apply sdpParse_settles s fuel _ _ (by omega)
    dsimp only
    rw [h]
    exact fun heq => nomatch heq
  rcases accepts_or_stops _
    (stands_first s (show _ ≤ fuel + (stringAt s 0).length + 2 by omega)) with
    hlines | ⟨e, hstops⟩
  · exact hlines
  · rw [sdpParse, hstops] at hmore
    cases hmore

theorem sdpParse_same {s : List UInt8} {fuel' : Nat} (h : sdpParse fuel s ≠ .error .outOfFuel)
    (h' : sdpParse fuel' s ≠ .error .outOfFuel) : sdpParse fuel s = sdpParse fuel' s :=
  (sdpParse_settles s fuel h (fuel + fuel') (Nat.le_add_right ..)).symm.trans
    (sdpParse_settles s fuel' h' (fuel + fuel') (Nat.le_add_left ..))

theorem sdpParse_eq {s : List UInt8} (h : sdpParse fuel s = .ok sdp) {fuel' : Nat}
    (h' : sdpParse fuel' s = .ok sdp') : sdp' = sdp := by
  have hsame := sdpParse_same (by rw [h]; exact fun heq => nomatch heq)
    (by rw [h']; exact fun heq => nomatch heq)
  rw [h, h'] at hsame
  exact (Except.ok.inj hsame).symm

end GbStream.Sdp
