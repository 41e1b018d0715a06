import GbStream.Sdp.Contents

/-!
# Entries by their index

The accessors that take an index: which indices each of them accepts, and that what it returns
then is the entry of the line of that number.
-/

namespace GbStream.Sdp

open Support Support.CString

variable {sdp : Session} {d : Description} {α β γ : Type} {N : Nat}

/-! ## The accessors -/

def entryAt (g : Growable α N) (idx : Int) : Except Stop α :=
  match g.get? idx.toNat with
  | none => .error .badSlot
  | some a => .ok a

/-- The body that four accessors share; `none` is a null pointer. -/
def getBelow (limit : Int) (g : Growable α N) (f : α → Option β) (idx : Int) :
    Except Stop (Option β) :=
  if idx ≥ limit ∨ idx < 0 then .ok none
  else do
    let a ← entryAt g idx
    .ok (f a)

/-- The index is compared as a `size_t`. -/
def sdpEmailGet (sdp : Session) (idx : Int) : Except Stop (Option Nat) :=
  getBelow sdp.e.count sdp.e id idx

def sdpPhoneGet (sdp : Session) (idx : Int) : Except Stop (Option Nat) :=
  getBelow sdp.p.count sdp.p id idx

/-- The count is compared as an `int`. -/
def sdpBandwidthGetType (sdp : Session) (idx : Int) : Except Stop (Option Nat) :=
  getBelow (Bytes.toS32 sdp.b.count) sdp.b Bandwidth.bwtype idx

/-- `sdp_get_media` of an `int`: as a `size_t` a negative one is above every count. -/
def mediaAt (sdp : Session) (media : Int) : Option Media :=
  if media < 0 then none else sdpGetMedia sdp media.toNat

def sdpMediaBandwidthGetType (sdp : Session) (media idx : Int) : Except Stop (Option Nat) :=
  match mediaAt sdp media with
  | none => .ok none
  | some m => getBelow (Bytes.toS32 m.b.count) m.b Bandwidth.bwtype idx

/-- Name and value, or `none` for `-1`.  The count itself is an index that is not refused. -/
def sdpAttributeGet (sdp : Session) (idx : Int) :
    Except Stop (Option (Option Nat × Option Nat)) :=
  if idx < 0 ∨ idx > sdp.a.count then .ok none
  else do
    let attr ← entryAt sdp.a idx
    .ok (some (attr.name, attr.value))

/-! ## What they should do -/

/-- An accessor succeeds exactly below the count, and returns what the line of that number
says. -/
structure Indexed (R : β → γ → Prop) (got : Except Stop (Option β)) (count : Nat) (xs : List γ)
    (idx : Int) : Prop where
  length : count = xs.length
  succeeds : got ≠ .ok none ↔ 0 ≤ idx ∧ idx < count
  returns : 0 ≤ idx → idx < count → ∃ b x, got = .ok (some b) ∧ xs[idx.toNat]? = some x ∧ R b x

inductive Listing
  | emails
  | phones
  | bandwidths
  | attributes
  | mediaBandwidths (media : Int)

def mediaBandwidthCount (sdp : Session) (media : Int) : Nat :=
  (mediaAt sdp media).elim 0 fun m => m.b.count

/-- The `m=` line of a number and its section. -/
def sectionAt (d : Description) (media : Int) : Option (MediaLine × Section) :=
  if media < 0 then none else d.medias[media.toNat]?

def mediaBandwidths (d : Description) (media : Int) : List (List UInt8 × List UInt8) :=
  (sectionAt d media).elim [] fun x => x.2.bandwidths

/-- The accessor of a list agrees with what the lines say. -/
def Agrees (sdp : Session) (d : Description) : Listing → Int → Prop
  | .emails, idx => Indexed (Held sdp.text) (sdpEmailGet sdp idx) sdp.e.count d.emails idx
  | .phones, idx => Indexed (Held sdp.text) (sdpPhoneGet sdp idx) sdp.p.count d.phones idx
  | .bandwidths, idx =>
      Indexed (fun p x => Held sdp.text p x.1) (sdpBandwidthGetType sdp idx) sdp.b.count
        d.session.bandwidths idx
  | .attributes, idx =>
      Indexed (fun p x => PairHolds sdp.text p.1 p.2 x) (sdpAttributeGet sdp idx) sdp.a.count
        d.session.attributes idx
  | .mediaBandwidths media, idx =>
      Indexed (fun p x => Held sdp.text p x.1) (sdpMediaBandwidthGetType sdp media idx)
        (mediaBandwidthCount sdp media) (mediaBandwidths d media) idx

/-- An index that is in the list but not below its count as an `int`. -/
def LostToCast (count : Nat) (idx : Int) : Prop := 0 ≤ idx ∧ Bytes.toS32 count ≤ idx ∧ idx < count

/-- The indices that an accessor treats right. -/
def Regular (sdp : Session) : Listing → Int → Prop
  | .emails, _ | .phones, _ => True
  | .bandwidths, idx => ¬ LostToCast sdp.b.count idx
  | .attributes, idx => idx ≠ sdp.a.count
  | .mediaBandwidths media, idx => ¬ LostToCast (mediaBandwidthCount sdp media) idx

/-! ## What they do -/

section Placed

variable {g : Growable α N} {xs : List γ} {Q : α → γ → Prop} {R : β → γ → Prop}
  {f : α → Option β} {limit idx : Int}

theorem entryAt_of_placed (h : g.Placed Q xs) (hlo : 0 ≤ idx) (hhi : idx < g.count) :
    ∃ a x, entryAt g idx = .ok a ∧ xs[idx.toNat]? = some x ∧ Q a x := by
  obtain ⟨a, x, hx, ha, hQ⟩ := h.entry (k := idx.toNat) (by omega)
  exact ⟨a, x, by rw [entryAt, ha], hx, hQ⟩

theorem getBelow_of_placed (h : g.Placed Q xs) (hf : ∀ a x, Q a x → ∃ b, f a = some b ∧ R b x)
    (hlo : 0 ≤ idx) (hlimit : idx < limit) (hhi : idx < g.count) :
    ∃ b x, getBelow limit g f idx = .ok (some b) ∧ xs[idx.toNat]? = some x ∧ R b x := by
  obtain ⟨a, x, ha, hx, hQ⟩ := entryAt_of_placed h hlo hhi
  obtain ⟨b, hb, hR⟩ := hf a x hQ
  refine ⟨b, x, ?_, hx, hR⟩
  rw [getBelow, if_neg (by omega), ha, ok_bind, hb]

/-- Whatever the index is compared with, the entries are right; only an index between the two
counts is refused that should not be. -/
theorem getBelow_indexed (h : g.Placed Q xs) (hf : ∀ a x, Q a x → ∃ b, f a = some b ∧ R b x)
    (hlimit : limit ≤ g.count) :
    Indexed R (getBelow limit g f idx) g.count xs idx ↔
      ¬ (0 ≤ idx ∧ limit ≤ idx ∧ idx < g.count) := by
  constructor
  · rintro ⟨-, hsucceeds, -⟩ ⟨hlo, hge, hhi⟩
    exact hsucceeds.mpr ⟨hlo, hhi⟩ (if_pos (.inl hge))
  · intro hregular
    have hreturns : 0 ≤ idx → idx < g.count → ∃ b x, getBelow limit g f idx = .ok (some b) ∧
        xs[idx.toNat]? = some x ∧ R b x :=
      fun hlo hhi => getBelow_of_placed h hf hlo (by omega) hhi
    refine ⟨h.count, ⟨fun hne => ?_, fun hin => ?_⟩, hreturns⟩
    · by_contra hout
      exact hne (if_pos (by omega))
    · obtain ⟨b, x, hget, -⟩ := hreturns hin.1 hin.2
      rw [hget]
      exact nofun

end Placed

theorem toS32_le (n : Nat) : Bytes.toS32 n ≤ n := by
  unfold Bytes.toS32 Int.bmod
  dsimp only
  split <;> omega

theorem attribute_indexed {idx : Int}
    (h : sdp.a.Placed (fun a x => PairHolds sdp.text a.name a.value x) d.session.attributes) :
    Agrees sdp d .attributes idx ↔ idx ≠ sdp.a.count := by
  constructor
  · rintro ⟨-, hsucceeds, -⟩ rfl
    refine absurd (hsucceeds.mp ?_).2 (lt_irrefl _)
    -- the count is not refused: whatever lies in that slot is returned
    rw [sdpAttributeGet, if_neg (by omega)]
    cases entryAt sdp.a sdp.a.count <;> exact nofun
  · intro hne
    have hreturns : 0 ≤ idx → idx < sdp.a.count → ∃ p x, sdpAttributeGet sdp idx = .ok (some p) ∧
        d.session.attributes[idx.toNat]? = some x ∧ PairHolds sdp.text p.1 p.2 x := by
      intro hlo hhi
      obtain ⟨a, x, ha, hx, hpair⟩ := entryAt_of_placed h hlo hhi
      refine ⟨(a.name, a.value), x, ?_, hx, hpair⟩
      rw [sdpAttributeGet, if_neg (by omega), ha, ok_bind]
    refine ⟨h.count, ⟨fun hgot => ?_, fun hin => ?_⟩, hreturns⟩
    · by_contra hout
      exact hgot (if_pos (by omega))
    · obtain ⟨p, x, hget, -⟩ := hreturns hin.1 hin.2
      rw [hget]
      exact nofun

theorem SessionHolds.media (h : SessionHolds sdp d) (media : Int) :
    (mediaAt sdp media = none ∧ sectionAt d media = none) ∨
      ∃ m x, mediaAt sdp media = some m ∧ sectionAt d media = some x ∧ MediaHolds sdp.text m x := by
  unfold mediaAt sectionAt
  have hcount := h.medias.count
  by_cases hneg : media < 0
  · exact .inl ⟨if_pos hneg, if_pos hneg⟩
  · rw [if_neg hneg, if_neg hneg, sdpGetMedia]
    by_cases hlt : media.toNat < sdp.m.count
    · obtain ⟨m, x, hx, hm, hholds⟩ := h.medias.entry hlt
      exact .inr ⟨m, x, by rw [if_neg (by omega), hm], hx, hholds⟩
    · exact .inl ⟨if_pos (by omega), List.getElem?_eq_none (by omega)⟩

theorem bandwidths_indexed {t : Text} {b : Growable Bandwidth 1}
    {xs : List (List UInt8 × List UInt8)} {idx : Int}
    (h : b.Placed (fun b x => PairHolds t b.bwtype b.bandwidth x) xs) :
    Indexed (fun p x => Held t p x.1) (getBelow (Bytes.toS32 b.count) b Bandwidth.bwtype idx)
      b.count xs idx ↔ ¬ LostToCast b.count idx :=
  getBelow_indexed h (fun _ _ hpair => hpair.1) (toS32_le b.count)

theorem SessionHolds.mediaBandwidths_indexed (h : SessionHolds sdp d) (media idx : Int) :
    Indexed (fun p x => Held sdp.text p x.1) (sdpMediaBandwidthGetType sdp media idx)
      (mediaBandwidthCount sdp media) (mediaBandwidths d media) idx ↔
      ¬ LostToCast (mediaBandwidthCount sdp media) idx := by
  unfold sdpMediaBandwidthGetType mediaBandwidthCount mediaBandwidths
  rcases h.media media with ⟨hnone, hnil⟩ | ⟨m, x, hsome, hlines, hholds⟩
  · rw [hnone, hnil]
    have hout : ¬ (0 ≤ idx ∧ idx < (0 : Nat)) := by omega
    refine iff_of_true ⟨rfl, iff_of_false (not_not.mpr rfl) hout, fun hlo hhi => ?_⟩ ?_
    · exact absurd ⟨hlo, hhi⟩ hout
    · exact fun hlost => hout ⟨hlost.1, hlost.2.2⟩
  · rw [hsome, hlines]
    exact bandwidths_indexed hholds.bandwidths

theorem SessionHolds.agrees_iff (h : SessionHolds sdp d) (list : Listing) (idx : Int) :
    Agrees sdp d list idx ↔ Regular sdp list idx := by
  cases list with
  | emails =>
      refine (getBelow_indexed h.emails (fun _ _ hrefers => hrefers) (Int.le_refl _)).trans ?_
      exact iff_of_true (by omega) trivial
  | phones =>
      refine (getBelow_indexed h.phones (fun _ _ hrefers => hrefers) (Int.le_refl _)).trans ?_
      exact iff_of_true (by omega) trivial
  | bandwidths => exact bandwidths_indexed h.bandwidths
  | attributes => exact attribute_indexed h.attributes
  | mediaBandwidths media => exact h.mediaBandwidths_indexed media idx

/-- For a session that `sdp_parse` returns, the accessor of a list agrees with the lines of the
text exactly at the regular indices. -/
theorem sdpParse_agrees_iff {s : List UInt8} {fuel : Nat} (h : sdpParse fuel s = .ok sdp) :
    ∃ lines, Accepts {} (stringAt s 0) lines ∧
      ∀ list idx, Agrees sdp (contents lines) list idx ↔ Regular sdp list idx := by
  obtain ⟨lines, haccepts, hholds⟩ := sdpParse_holds h
  exact ⟨lines, haccepts, hholds.agrees_iff⟩

/-- One attribute, and a bandwidth behind the inline slot of a media. -/
def listsText : List UInt8 :=
  ascii "a=sendonly\r\nm=video 6000 RTP/AVP 96\r\nb=AS:64\r\nb=CT:128\r\n" ++ [0]

theorem sdpParse_agrees_iff_lists :
    ∃ sdp, sdpParse 16 listsText = .ok sdp ∧
      ∃ lines, Accepts {} (stringAt listsText 0) lines ∧
        ∀ list idx, Agrees sdp (contents lines) list idx ↔ Regular sdp list idx := by
  have hparse : ∃ sdp, sdpParse 16 listsText = .ok sdp := ⟨_, rfl⟩
  obtain ⟨sdp, hparse⟩ := hparse
  exact ⟨sdp, hparse, sdpParse_agrees_iff hparse⟩

/-- The index behind the one attribute is accepted; what is returned names nothing. -/
theorem listsText_attribute :
    ∃ sdp, sdpParse 16 listsText = .ok sdp ∧ sdp.a.count = 1 ∧
      sdpAttributeGet sdp 1 = .ok (some (none, none)) ∧ ∀ d, ¬ Agrees sdp d .attributes 1 := by
  refine ⟨_, rfl, rfl, rfl, fun d h => ?_⟩
  have hgot := h.succeeds.mp nofun
  exact absurd hgot.2 (lt_irrefl 1)

end GbStream.Sdp
