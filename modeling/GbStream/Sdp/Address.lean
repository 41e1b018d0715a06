import GbStream.Sdp.Accessors
import GbStream.Support.Bytes

/-!
# The address of a connection

`sdp_connection_get_address` and `sdp_media_get_connection_address` copy the address of a `c=`
line up to its first slash.  The pointer that the loop reads from is never moved.
-/

namespace GbStream.Sdp

open Support Support.CString Support.Bytes

variable {raw buf buf' ip a : List UInt8} {p k bytes : Nat} {c : UInt8} {sdp : Session}
  {d : Description}

/-! ## The accessors -/

def slash : UInt8 := byte '/'

def load (raw : List UInt8) (p : Nat) : Except Stop UInt8 :=
  match raw[p]? with
  | none => .error .outOfBounds
  | some c => .ok c

def store (buf : List UInt8) (k : Nat) (c : UInt8) : Except Stop (List UInt8) :=
  match writeAt buf k [c] with
  | none => .error .badSlot
  | some buf => .ok buf

/-- The `while` loop, by `bytes`; the buffer and how far `ip` has moved in it. -/
def copyLoop (raw : List UInt8) (p : Nat) : Nat → List UInt8 → Nat → Except Stop (List UInt8 × Nat)
  | bytes + 2, buf, k => do
      let c ← load raw p
      if c ≠ 0 ∧ c ≠ slash then do
        let buf ← store buf k c
        copyLoop raw p (bytes + 1) buf (k + 1)
      else .ok (buf, k)
  | _, buf, k => .ok (buf, k)

def getAddress (raw : List UInt8) (address : Option Nat) (ip : List UInt8) (bytes : Int) :
    Except Stop (Int × List UInt8) :=
  match address with
  | none => .ok (-1, ip)
  | some p =>
      if bytes > 0 then do
        let (buf, k) ← copyLoop raw p bytes.toNat ip 0
        let c ← load raw p
        if c = 0 ∨ c = slash then do
          let buf ← store buf k 0
          .ok (0, buf)
        else .ok (-1, buf)
      else .ok (-1, ip)

/-- The return value and the memory at `ip`. -/
def sdpConnectionGetAddress (sdp : Session) (ip : List UInt8) (bytes : Int) :
    Except Stop (Int × List UInt8) :=
  getAddress sdp.text.raw sdp.c.address ip bytes

/-- The first connection of a media that has one, or that of the session. -/
def mediaConnection (sdp : Session) (media : Int) : Connection :=
  match mediaAt sdp media with
  | none => sdp.c
  | some m => if m.c.count > 0 then m.c.inline.get ⟨0, Nat.zero_lt_one⟩ else sdp.c

def sdpMediaGetConnectionAddress (sdp : Session) (media : Int) (ip : List UInt8) (bytes : Int) :
    Except Stop (Int × List UInt8) :=
  getAddress sdp.text.raw (mediaConnection sdp media).address ip bytes

/-! ## What they should do -/

def beforeSlash (a : List UInt8) : List UInt8 := a.takeWhile fun c => c ≠ slash

/-- The part of the address with its terminator and `0` if there is room for it, or else `-1`; in
no case is anything behind the buffer written to. -/
structure Extracts (a ip : List UInt8) (bytes : Nat) (result : Except Stop (Int × List UInt8)) :
    Prop where
  inside : ∃ r buf, result = .ok (r, buf) ∧ buf.length = ip.length ∧ buf.drop bytes = ip.drop bytes
  fits : (beforeSlash a).length < bytes →
    result = .ok (0, beforeSlash a ++ 0 :: ip.drop ((beforeSlash a).length + 1))
  truncated : bytes ≤ (beforeSlash a).length → ∃ buf, result = .ok (-1, buf)

/-- The addresses and buffers for which they do: nothing in front of the slash, or no room. -/
def Extractable (a : List UInt8) (bytes : Nat) : Prop :=
  beforeSlash a = [] ∨ bytes ≤ (beforeSlash a).length

/-! ## What they do -/

theorem load_of_isString {w : List UInt8} (h : IsString raw p w) :
    load raw p = .ok (w.headD 0) := by
  have hget : raw[p]? = some (w.headD 0) := by
    cases w with
    | nil => exact h.terminator
    | cons c w => exact h.spans 0 (Nat.zero_lt_succ _)
  rw [load, hget]

theorem store_ok (h : k < buf.length) (c : UInt8) :
    ∃ buf', store buf k c = .ok buf' ∧ writeAt buf k [c] = some buf' := by
  have hroom : k + [c].length ≤ buf.length := Nat.succ_le_of_lt h
  obtain ⟨buf', hwrite⟩ := writeAt_isSome hroom
  exact ⟨buf', by rw [store, hwrite], hwrite⟩

theorem copyLoop_end (h : load raw p = .ok c) (hc : c = 0 ∨ c = slash) :
    copyLoop raw p bytes buf k = .ok (buf, k) := by
  have hstops : ¬ (c ≠ 0 ∧ c ≠ slash) := fun hgoes => hc.elim hgoes.1 hgoes.2
  match bytes with
  | 0 | 1 => rfl
  | bytes + 2 => rw [copyLoop, h, ok_bind, if_neg hstops]

theorem copyLoop_fills (h : load raw p = .ok c) (hc : c ≠ 0 ∧ c ≠ slash) (bytes : Nat) :
    ∀ {buf : List UInt8} {k : Nat}, k + bytes ≤ buf.length →
      ∃ buf', copyLoop raw p (bytes + 1) buf k = .ok (buf', k + bytes) ∧
        buf'.length = buf.length ∧ buf'.drop (k + bytes) = buf.drop (k + bytes) := by
  induction bytes with
  | zero => exact fun {buf} {k} _ => ⟨buf, rfl, rfl, rfl⟩
  | succ bytes ih =>
      intro buf k hroom
      have hsum : k + (bytes + 1) = k + 1 + bytes := by omega
      obtain ⟨buf₁, hstore, hwrite⟩ := store_ok (show k < buf.length by omega) c
      have hlength := length_of_writeAt hwrite
      obtain ⟨buf', hloop, hlength', hdrop⟩ := ih (show k + 1 + bytes ≤ buf₁.length by omega)
      have hbehind := drop_after_writeAt hwrite (show k + [c].length ≤ k + 1 + bytes by simp)
      refine ⟨buf', ?_, hlength'.trans hlength, ?_⟩
      · rw [copyLoop, h, ok_bind, if_pos hc, hstore, ok_bind, hloop, hsum]
      · rw [hsum, hdrop, hbehind]

/-- The address begins with a slash, or is empty: its part is empty too and is copied. -/
theorem getAddress_nothing (h : load raw p = .ok c) (hc : c = 0 ∨ c = slash) (hbytes : 0 < bytes)
    (hroom : bytes ≤ ip.length) : getAddress raw (some p) ip bytes = .ok (0, 0 :: ip.drop 1) := by
  have hwrite : writeAt ip 0 [0] = some (0 :: ip.drop 1) :=
    if_pos (show 0 + [(0 : UInt8)].length ≤ ip.length by simp; omega)
  have hpos : (bytes : Int) > 0 := by omega
  have hstore : store ip 0 0 = .ok (0 :: ip.drop 1) := by rw [store, hwrite]
  simp only [getAddress, if_pos hpos, copyLoop_end h hc, h, ok_bind, if_pos hc, hstore]

theorem getAddress_something (h : load raw p = .ok c) (hc : c ≠ 0 ∧ c ≠ slash) (hbytes : 0 < bytes)
    (hroom : bytes ≤ ip.length) :
    ∃ buf, getAddress raw (some p) ip bytes = .ok (-1, buf) ∧ buf.length = ip.length ∧
      buf.drop bytes = ip.drop bytes := by
  obtain ⟨n, rfl⟩ := Nat.exists_eq_add_of_le' hbytes
  obtain ⟨buf, hloop, hlength, hdrop⟩ :=
    copyLoop_fills h hc n (show 0 + n ≤ ip.length by omega)
  have hpos : ((n + 1 : Nat) : Int) > 0 := by omega
  have hstops : ¬ (c = 0 ∨ c = slash) := not_or.mpr hc
  refine ⟨buf, ?_, hlength, ?_⟩
  · simp only [getAddress, if_pos hpos, Int.toNat_natCast, hloop, h, ok_bind, if_neg hstops]
  · have hmore := congrArg (List.drop 1) hdrop
    rwa [List.drop_drop, List.drop_drop, Nat.zero_add] at hmore

theorem beforeSlash_eq_nil (ha : 0 ∉ a) :
    beforeSlash a = [] ↔ a.headD 0 = 0 ∨ a.headD 0 = slash := by
  cases a with
  | nil => exact iff_of_true rfl (.inl rfl)
  | cons c a =>
      have hc : c ≠ 0 := fun hc => ha (hc ▸ List.mem_cons_self ..)
      simp [beforeSlash, List.takeWhile_cons, hc]

theorem getAddress_extracts_iff (ha : IsString raw p a) (hbytes : 0 < bytes)
    (hroom : bytes ≤ ip.length) :
    Extracts a ip bytes (getAddress raw (some p) ip bytes) ↔ Extractable a bytes := by
  have hload := load_of_isString ha
  have hnil := beforeSlash_eq_nil ha.noNul
  by_cases hc : a.headD 0 = 0 ∨ a.headD 0 = slash
  · have hget := getAddress_nothing hload hc hbytes hroom
    have hempty := hnil.mpr hc
    refine iff_of_true ⟨⟨0, _, hget, ?_, ?_⟩, fun _ => ?_, fun hshort => ?_⟩ (.inl hempty)
    · rw [List.length_cons, List.length_drop]
      omega
    · obtain ⟨n, rfl⟩ := Nat.exists_eq_add_of_le' hbytes
      rw [List.drop_succ_cons, List.drop_drop, Nat.add_comm]
    · rw [hget, hempty]
      rfl
    · rw [hempty] at hshort
      exact absurd hbytes (Nat.not_lt.mpr hshort)
  · obtain ⟨buf, hget, hlength, hdrop⟩ :=
      getAddress_something hload (not_or.mp hc) hbytes hroom
    have hne : beforeSlash a ≠ [] := fun heq => hc (hnil.mp heq)
    constructor
    · intro hextracts
      refine .inr (Nat.not_lt.mp fun hfits => ?_)
      have hzero := hextracts.fits hfits
      rw [hget] at hzero
      cases hzero
    · intro hextractable
      have hshort := hextractable.resolve_left hne
      exact ⟨⟨-1, buf, hget, hlength, hdrop⟩, fun hfits => absurd hfits (Nat.not_lt.mpr hshort),
        fun _ => ⟨buf, hget⟩⟩

/-! ## The addresses of a session -/

/-- The connection that the lines name for a media: the first `c=` line of its section, or the
last one of the session. -/
def mediaConnectionLine (d : Description) (media : Int) :
    Option (List UInt8 × List UInt8 × List UInt8) :=
  ((sectionAt d media).bind fun x => x.2.connections.head?).or d.session.connections.getLast?

theorem SessionHolds.mediaConnection (h : SessionHolds sdp d) (media : Int) :
    ∀ x ∈ mediaConnectionLine d media, ConnectionHolds sdp.text (mediaConnection sdp media) x := by
  intro x hx
  unfold Sdp.mediaConnection
  unfold mediaConnectionLine at hx
  rcases h.media media with ⟨hnone, hlines⟩ | ⟨m, y, hsome, hlines, hholds⟩
  · rw [hlines] at hx
    rw [hnone]
    exact h.connection.2 x hx
  · rw [hlines, Option.bind_some] at hx
    rw [hsome]
    have hcount := hholds.connections.count
    dsimp only
    split
    · rename_i hpos
      obtain ⟨first, rest, hcons⟩ := List.exists_cons_of_length_pos (hcount ▸ hpos)
      rw [hcons] at hx
      obtain rfl : first = x := Option.some.inj hx
      -- the slot that is read is the inline one
      exact hholds.connections.inline 0 Nat.one_pos first (by rw [hcons]; rfl)
    · have hnil : y.2.connections = [] := List.eq_nil_of_length_eq_zero (by omega)
      rw [hnil] at hx
      exact h.connection.2 x hx

/-- For a session that `sdp_parse` returns, both accessors copy the address of a `c=` line right
exactly if it is extractable. -/
theorem sdpParse_extracts_iff {s : List UInt8} {fuel : Nat} (h : sdpParse fuel s = .ok sdp) :
    ∃ lines, Accepts {} (stringAt s 0) lines ∧
      ∀ ip (bytes : Nat), 0 < bytes → bytes ≤ ip.length →
        (∀ x ∈ (contents lines).session.connections.getLast?,
          (Extracts x.2.2 ip bytes (sdpConnectionGetAddress sdp ip bytes) ↔
            Extractable x.2.2 bytes)) ∧
        ∀ media, ∀ x ∈ mediaConnectionLine (contents lines) media,
          (Extracts x.2.2 ip bytes (sdpMediaGetConnectionAddress sdp media ip bytes) ↔
            Extractable x.2.2 bytes) := by
  obtain ⟨lines, haccepts, hholds⟩ := sdpParse_holds h
  have hextracts : ∀ (c : Connection) x ip (bytes : Nat), ConnectionHolds sdp.text c x →
      0 < bytes → bytes ≤ ip.length →
      (Extracts x.2.2 ip bytes (getAddress sdp.text.raw c.address ip bytes) ↔
        Extractable x.2.2 bytes) := by
    rintro c x ip bytes ⟨-, -, ptr, haddress, hheld⟩ hbytes hroom
    rw [haddress]
    exact getAddress_extracts_iff hheld.isString hbytes hroom
  refine ⟨lines, haccepts, fun ip bytes hbytes hroom => ⟨fun x hx => ?_, fun media x hx => ?_⟩⟩
  · exact hextracts sdp.c x ip bytes (hholds.connection.2 x hx) hbytes hroom
  · exact hextracts _ x ip bytes (hholds.mediaConnection media x hx) hbytes hroom

/-- A multicast address with its TTL, and the address of a media. -/
def addressText : List UInt8 :=
  ascii "c=IN IP4 224.2.36.42/127\r\nm=video 6000 RTP/AVP 96\r\nc=IN IP4 10.0.0.1\r\n" ++ [0]

theorem sdpParse_extracts_iff_address :
    ∃ sdp lines, sdpParse 32 addressText = .ok sdp ∧ Accepts {} (stringAt addressText 0) lines ∧
      (∀ x ∈ (contents lines).session.connections.getLast?,
        (Extracts x.2.2 (List.replicate 16 1) 16
          (sdpConnectionGetAddress sdp (List.replicate 16 1) 16) ↔
          Extractable x.2.2 16)) ∧
      ∀ media, ∀ x ∈ mediaConnectionLine (contents lines) media,
        (Extracts x.2.2 (List.replicate 16 1) 16
          (sdpMediaGetConnectionAddress sdp media (List.replicate 16 1) 16) ↔
          Extractable x.2.2 16) := by
  have hparse : ∃ sdp, sdpParse 32 addressText = .ok sdp := ⟨_, rfl⟩
  obtain ⟨sdp, hparse⟩ := hparse
  obtain ⟨lines, haccepts, haddresses⟩ := sdpParse_extracts_iff hparse
  exact ⟨sdp, lines, hparse, haccepts, haddresses (List.replicate 16 1) 16 (by decide) (by decide)⟩

/-- The address of the session has room in 16 bytes; its first byte is copied 15 times. -/
theorem addressText_filled :
    ∃ sdp ptr, sdpParse 32 addressText = .ok sdp ∧ sdp.c.address = some ptr ∧
      stringAt sdp.text.raw ptr = ascii "224.2.36.42/127" ∧
      sdpConnectionGetAddress sdp (List.replicate 16 0) 16 =
        .ok (-1, List.replicate 15 (byte '2') ++ [0]) ∧
      ¬ Extracts (ascii "224.2.36.42/127") (List.replicate 16 0) 16
        (sdpConnectionGetAddress sdp (List.replicate 16 0) 16) := by
  have hfilled : ∃ sdp ptr, sdpParse 32 addressText = .ok sdp ∧ sdp.c.address = some ptr ∧
      stringAt sdp.text.raw ptr = ascii "224.2.36.42/127" ∧
      sdpConnectionGetAddress sdp (List.replicate 16 0) 16 =
        .ok (-1, List.replicate 15 (byte '2') ++ [0]) :=
    ⟨_, _, rfl, rfl, by decide +kernel, by decide +kernel⟩
  obtain ⟨sdp, ptr, hparse, haddress, hstring, hget⟩ := hfilled
  refine ⟨sdp, ptr, hparse, haddress, hstring, hget, fun h => ?_⟩
  have hzero := h.fits (by decide)
  rw [hget] at hzero
  cases hzero

end GbStream.Sdp
