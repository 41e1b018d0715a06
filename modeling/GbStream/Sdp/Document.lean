import Mathlib.Data.List.ModifyLast
import GbStream.Sdp.Loops

/-!
# Well-formed descriptions

What a session description says, line by line, and how it is written down.  Nothing here
mentions the parser's object.
-/

namespace GbStream.Sdp

/-! ## Lines -/

structure MediaLine where
  media : List UInt8
  port : List UInt8
  proto : List UInt8
  formats : List (List UInt8)
  deriving DecidableEq, Repr

inductive Line
  | version (digits : List UInt8)
  | origin (username session version network addrtype address : List UInt8)
  | name (text : List UInt8)
  | information (text : List UInt8)
  | uri (text : List UInt8)
  | email (text : List UInt8)
  | phone (text : List UInt8)
  | y (text : List UInt8)
  | connection (network addrtype address : List UInt8)
  | timing (start stop : List UInt8)
  | bandwidth (bwtype value : List UInt8)
  | encryption (method : List UInt8) (key : Option (List UInt8))
  | attribute (name : List UInt8) (value : Option (List UInt8))
  | media (line : MediaLine)
  deriving DecidableEq, Repr

def numeral (digits : List UInt8) : Nat :=
  digits.foldl (fun v c => v * 10 + (c.toNat - 48)) 0

/-- One token, without blanks. -/
def Word (w : List UInt8) : Prop := w ≠ [] ∧ w.all fun c => c ≠ 0 ∧ c ∉ blankEol

def Value (w : List UInt8) : Prop :=
  (w.all fun c => c ≠ 0 ∧ c ∉ eol) ∧ ¬ w.head?.any Text.isBlank ∧ ¬ w.getLast?.any Text.isBlank

def Name (w : List UInt8) : Prop := Value w ∧ colon ∉ w

def Line.WellFormed : Line → Prop
  | .version digits => digits.all isDigit ∧ numeral digits < 2147483648
  | .origin a b c d e f => ∀ w ∈ [a, b, c, d, e, f], Word w
  | .name w | .information w | .uri w | .email w | .phone w | .y w => Value w
  | .connection a b c => ∀ w ∈ [a, b, c], Word w
  | .timing start stop => ∀ w ∈ [start, stop], Word w
  | .bandwidth bwtype value => Name bwtype ∧ Value value
  | .encryption method key => Name method ∧ Value (key.getD [])
  | .attribute a value => Name a ∧ Value (value.getD [])
  | .media m => (∀ w ∈ m.media :: m.port :: m.proto :: m.formats, Word w) ∧ m.formats.length ≤ 12

instance : DecidablePred Word := fun _ => inferInstanceAs (Decidable (_ ∧ _))
instance : DecidablePred Value := fun _ => inferInstanceAs (Decidable (_ ∧ _ ∧ _))
instance : DecidablePred Name := fun _ => inferInstanceAs (Decidable (_ ∧ _))

instance : DecidablePred Line.WellFormed
  | .version _ => inferInstanceAs (Decidable (_ ∧ _))
  | .origin .. | .connection .. | .timing .. => inferInstanceAs (Decidable (∀ w ∈ _, Word w))
  | .name _ | .information _ | .uri _ | .email _ | .phone _ | .y _ =>
      inferInstanceAs (Decidable (Value _))
  | .bandwidth .. | .encryption .. | .attribute .. => inferInstanceAs (Decidable (Name _ ∧ Value _))
  | .media _ => inferInstanceAs (Decidable ((∀ w ∈ _, Word w) ∧ _))

/-! ## Their text -/

def spaced : List (List UInt8) → List UInt8
  | [] => []
  | [w] => w
  | w :: ws => w ++ space :: spaced ws

def withColon (name : List UInt8) : Option (List UInt8) → List UInt8
  | none => name
  | some value => name ++ colon :: value

def Line.letter : Line → UInt8
  | .version .. => byte 'v'
  | .origin .. => byte 'o'
  | .name .. => byte 's'
  | .information .. => byte 'i'
  | .uri .. => byte 'u'
  | .email .. => byte 'e'
  | .phone .. => byte 'p'
  | .y .. => byte 'y'
  | .connection .. => byte 'c'
  | .timing .. => byte 't'
  | .bandwidth .. => byte 'b'
  | .encryption .. => byte 'k'
  | .attribute .. => byte 'a'
  | .media .. => byte 'm'

def Line.body : Line → List UInt8
  | .version digits => digits
  | .origin a b c d e f => spaced [a, b, c, d, e, f]
  | .name w | .information w | .uri w | .email w | .phone w | .y w => w
  | .connection a b c => spaced [a, b, c]
  | .timing start stop => spaced [start, stop]
  | .bandwidth bwtype value => withColon bwtype (some value)
  | .encryption method key => withColon method key
  | .attribute a value => withColon a value
  | .media m => spaced (m.media :: m.port :: m.proto :: m.formats)

def Line.render (line : Line) : List UInt8 :=
  line.letter :: byte '=' :: (line.body ++ [cr, lf])

def render (lines : List Line) : List UInt8 := lines.flatMap Line.render

/-! ## Their meaning -/

def Line.version? : Line → Option Nat
  | .version digits => some (numeral digits)
  | _ => none

def Line.origin? : Line →
    Option (List UInt8 × List UInt8 × List UInt8 × List UInt8 × List UInt8 × List UInt8)
  | .origin a b c d e f => some (a, b, c, d, e, f)
  | _ => none

def Line.name? : Line → Option (List UInt8)
  | .name text => some text
  | _ => none

def Line.information? : Line → Option (List UInt8)
  | .information text => some text
  | _ => none

def Line.uri? : Line → Option (List UInt8)
  | .uri text => some text
  | _ => none

def Line.email? : Line → Option (List UInt8)
  | .email text => some text
  | _ => none

def Line.phone? : Line → Option (List UInt8)
  | .phone text => some text
  | _ => none

def Line.y? : Line → Option (List UInt8)
  | .y text => some text
  | _ => none

def Line.connection? : Line → Option (List UInt8 × List UInt8 × List UInt8)
  | .connection a b c => some (a, b, c)
  | _ => none

def Line.timing? : Line → Option (List UInt8 × List UInt8)
  | .timing start stop => some (start, stop)
  | _ => none

def Line.bandwidth? : Line → Option (List UInt8 × List UInt8)
  | .bandwidth bwtype value => some (bwtype, value)
  | _ => none

def Line.encryption? : Line → Option (List UInt8 × List UInt8)
  | .encryption method key => some (method, key.getD [])
  | _ => none

def Line.attribute? : Line → Option (List UInt8 × List UInt8)
  | .attribute a value => some (a, value.getD [])
  | _ => none

/-- The lines before the first `m=`, and each `m=` with the lines up to the next. -/
def sections : List Line → List Line × List (MediaLine × List Line)
  | [] => ([], [])
  | .media m :: lines => ([], (m, (sections lines).1) :: (sections lines).2)
  | line :: lines => (line :: (sections lines).1, (sections lines).2)

@[ext]
structure Section where
  information : Option (List UInt8)
  connections : List (List UInt8 × List UInt8 × List UInt8)
  bandwidths : List (List UInt8 × List UInt8)
  encryption : Option (List UInt8 × List UInt8)
  attributes : List (List UInt8 × List UInt8)

/-- Of several `i=` or `k=` lines the last one counts. -/
def sectionOf (lines : List Line) : Section where
  information := (lines.filterMap Line.information?).getLast?
  connections := lines.filterMap Line.connection?
  bandwidths := lines.filterMap Line.bandwidth?
  encryption := (lines.filterMap Line.encryption?).getLast?
  attributes := lines.filterMap Line.attribute?

@[ext]
structure Description where
  version : Option Nat
  origin :
    Option (List UInt8 × List UInt8 × List UInt8 × List UInt8 × List UInt8 × List UInt8)
  name : Option (List UInt8)
  uri : Option (List UInt8)
  y : Option (List UInt8)
  emails : List (List UInt8)
  phones : List (List UInt8)
  timings : List (List UInt8 × List UInt8)
  session : Section
  medias : List (MediaLine × Section)

def describe (lines : List Line) : Description where
  version := (lines.filterMap Line.version?).getLast?
  origin := (lines.filterMap Line.origin?).getLast?
  name := (lines.filterMap Line.name?).getLast?
  uri := (lines.filterMap Line.uri?).getLast?
  y := (lines.filterMap Line.y?).getLast?
  emails := lines.filterMap Line.email?
  phones := lines.filterMap Line.phone?
  timings := lines.filterMap Line.timing?
  session := sectionOf (sections lines).1
  medias := (sections lines).2.map fun m => (m.1, sectionOf m.2)

/-! ## One more line -/

section Concat

variable {α β : Type} {f : α → Option β} {x : α} {y : β}

theorem filterMap_concat_none (h : f x = none) (xs : List α) :
    (xs ++ [x]).filterMap f = xs.filterMap f := by
  simp [List.filterMap_append, h]

theorem filterMap_concat_some (h : f x = some y) (xs : List α) :
    (xs ++ [x]).filterMap f = xs.filterMap f ++ [y] := by
  simp [List.filterMap_append, h]

theorem getLast?_concat_none (h : f x = none) (xs : List α) :
    ((xs ++ [x]).filterMap f).getLast? = (xs.filterMap f).getLast? := by
  rw [filterMap_concat_none h]

theorem getLast?_concat_some (h : f x = some y) (xs : List α) :
    ((xs ++ [x]).filterMap f).getLast? = some y := by
  rw [filterMap_concat_some h, List.getLast?_concat]

end Concat

def Section.add (s : Section) : Line → Section
  | .information text => { s with information := some text }
  | .connection a b c => { s with connections := s.connections ++ [(a, b, c)] }
  | .bandwidth bwtype value => { s with bandwidths := s.bandwidths ++ [(bwtype, value)] }
  | .encryption method key => { s with encryption := some (method, key.getD []) }
  | .attribute name value => { s with attributes := s.attributes ++ [(name, value.getD [])] }
  | _ => s

theorem sectionOf_concat (lines : List Line) (line : Line) :
    sectionOf (lines ++ [line]) = (sectionOf lines).add line := by
  cases line <;> ext1 <;>
    first
    | (apply getLast?_concat_none; rfl)
    | (apply filterMap_concat_none; rfl)
    | (apply getLast?_concat_some; rfl)
    | (apply filterMap_concat_some; rfl)

def Description.addToSection (d : Description) (line : Line) : Description :=
  if d.medias = [] then { d with session := d.session.add line }
  else { d with medias := d.medias.modifyLast fun m => (m.1, m.2.add line) }

def Description.add (d : Description) : Line → Description
  | .version digits => { d with version := some (numeral digits) }
  | .origin a b c e f g => { d with origin := some (a, b, c, e, f, g) }
  | .name text => { d with name := some text }
  | .uri text => { d with uri := some text }
  | .y text => { d with y := some text }
  | .email text => { d with emails := d.emails ++ [text] }
  | .phone text => { d with phones := d.phones ++ [text] }
  | .timing start stop => { d with timings := d.timings ++ [(start, stop)] }
  | .media m => { d with medias := d.medias ++ [(m, sectionOf [])] }
  | line => d.addToSection line

theorem sections_concat_media (lines : List Line) (m : MediaLine) :
    sections (lines ++ [.media m]) = ((sections lines).1, (sections lines).2 ++ [(m, [])]) := by
  induction lines with
  | nil => rfl
  | cons line lines ih => cases line <;> simp [sections, ih]

theorem sections_cons {first : Line} (hfirst : ∀ m, first ≠ .media m) (lines : List Line) :
    sections (first :: lines) = (first :: (sections lines).1, (sections lines).2) := by
  cases first <;> first | rfl | exact absurd rfl (hfirst _)

theorem sections_concat {line : Line} (hline : ∀ m, line ≠ .media m) (lines : List Line) :
    sections (lines ++ [line]) =
      if (sections lines).2 = [] then ((sections lines).1 ++ [line], [])
      else ((sections lines).1, (sections lines).2.modifyLast fun m => (m.1, m.2 ++ [line])) := by
  induction lines with
  | nil => exact sections_cons hline []
  | cons first lines ih =>
      by_cases hfirst : ∃ m, first = .media m
      · obtain ⟨m, rfl⟩ := hfirst
        rw [List.cons_append, sections, sections, ih, if_neg (List.cons_ne_nil _ _)]
        by_cases hnone : (sections lines).2 = []
        · rw [if_pos hnone, hnone]
          rfl
        · rw [if_neg hnone]
          exact congrArg (Prod.mk [])
            (List.modifyLast_append_of_right_ne_nil _ [_] _ hnone).symm
      · rw [not_exists] at hfirst
        rw [List.cons_append, sections_cons hfirst, sections_cons hfirst, ih]
        by_cases hnone : (sections lines).2 = []
        · rw [if_pos hnone, if_pos hnone]
          rfl
        · rw [if_neg hnone, if_neg hnone]

theorem map_modifyLast {α β : Type} {f : α → α} {f' : β → β} {g : α → β}
    (hfg : ∀ x, g (f x) = f' (g x)) (xs : List α) :
    (xs.modifyLast f).map g = (xs.map g).modifyLast f' := by
  rcases List.eq_nil_or_concat xs with rfl | ⟨front, x, rfl⟩
  · rfl
  · rw [List.concat_eq_append, List.modifyLast_concat, List.map_append, List.map_append,
      List.map_singleton, List.map_singleton, List.modifyLast_concat, hfg]

theorem describe_section {line : Line} (hline : ∀ m, line ≠ .media m) (lines : List Line) :
    (describe (lines ++ [line])).session = ((describe lines).addToSection line).session ∧
      (describe (lines ++ [line])).medias = ((describe lines).addToSection line).medias := by
  have hmedias : (describe lines).medias = [] ↔ (sections lines).2 = [] := List.map_eq_nil_iff
  have hsections := sections_concat hline lines
  change sectionOf (sections (lines ++ [line])).1 = _ ∧
    (sections (lines ++ [line])).2.map (fun m => (m.1, sectionOf m.2)) = _
  rw [hsections, Description.addToSection]
  by_cases hnone : (sections lines).2 = []
  · rw [if_pos hnone, if_pos (hmedias.mpr hnone)]
    exact ⟨sectionOf_concat _ _, (hmedias.mpr hnone).symm⟩
  · rw [if_neg hnone, if_neg fun h => hnone (hmedias.mp h)]
    refine ⟨rfl, ?_⟩
    apply map_modifyLast
    intro m
    rw [sectionOf_concat]

theorem addToSection_eq_self {line : Line} (hline : ∀ s : Section, s.add line = s)
    (d : Description) : d.addToSection line = d := by
  unfold Description.addToSection
  split
  · rw [hline]
  · rcases List.eq_nil_or_concat d.medias with hnil | ⟨front, m, hsplit⟩
    · contradiction
    · rw [hsplit, List.concat_eq_append, List.modifyLast_concat, hline, ← List.concat_eq_append,
        ← hsplit]

theorem addToSection_keeps (d : Description) (line : Line) :
    ∃ session medias, d.addToSection line = { d with session, medias } := by
  unfold Description.addToSection
  split
  · exact ⟨_, d.medias, rfl⟩
  · exact ⟨d.session, _, rfl⟩

theorem describe_concat (lines : List Line) (line : Line) :
    describe (lines ++ [line]) = (describe lines).add line := by
  by_cases hmedia : ∃ m, line = .media m
  · obtain ⟨m, rfl⟩ := hmedia
    ext1
    case session => rw [describe, sections_concat_media]; rfl
    case medias => simp only [describe, sections_concat_media, Description.add, List.map_append,
      List.map_singleton]
    all_goals
      first
      | (apply getLast?_concat_none; rfl)
      | (apply filterMap_concat_none; rfl)
  · rw [not_exists] at hmedia
    obtain ⟨hsession, hmedias⟩ := describe_section hmedia lines
    obtain ⟨session, medias, hkeeps⟩ := addToSection_keeps (describe lines) line
    have hself : (∀ s : Section, s.add line = s) →
        (describe lines).session = session ∧ (describe lines).medias = medias := by
      intro hnone
      rw [addToSection_eq_self hnone] at hkeeps
      rw [hkeeps]
      exact ⟨rfl, rfl⟩
    rw [hkeeps] at hsession hmedias
    cases line with
    | media m => exact absurd rfl (hmedia m)
    | version | origin | name | uri | email | phone | y | timing =>
        obtain ⟨rfl, rfl⟩ := hself fun _ => rfl
        ext1
        case session => exact hsession
        case medias => exact hmedias
        all_goals
          first
          | (apply getLast?_concat_none; rfl)
          | (apply filterMap_concat_none; rfl)
          | (apply getLast?_concat_some; rfl)
          | (apply filterMap_concat_some; rfl)
    | _ =>
        change _ = (describe lines).addToSection _
        rw [hkeeps]
        ext1
        case session => exact hsession
        case medias => exact hmedias
        all_goals
          first
          | (apply getLast?_concat_none; rfl)
          | (apply filterMap_concat_none; rfl)

end GbStream.Sdp
