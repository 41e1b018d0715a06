import Mathlib.Data.List.Forall2
import Mathlib.Data.List.Induction
import Mathlib.Data.List.Pairwise
import GbStream.Sdp.Parse

/-!
# What a line parser does

A line parser scans tokens, finds the end of the line and writes a terminator behind
each token.  It never writes in front of the line, it leaves what follows the line as it
was, and behind a line with an end every token is a string of its own.
-/

namespace GbStream.Sdp

open Support Support.CString

variable {t u v : Text} {xs ys rest w : List UInt8} {toks : List Token}
  {ws : List (List UInt8)}

/-! ## Tokens -/

/-- A token holds the bytes `w`. -/
structure Reads (raw : List UInt8) (tok : Token) (w : List UInt8) : Prop where
  n : tok.n = w.length
  spans : Spans raw tok.ptr w
  noNul : 0 ∉ w

/-- The terminator of the first token does not fall into the second. -/
def Token.Before (a b : Token) : Prop := a.stop ≤ b.ptr ∧ (0 < b.n → a.stop < b.ptr)

structure Tokens (raw : List UInt8) (lo hi : Nat) (toks : List Token)
    (ws : List (List UInt8)) : Prop where
  reads : List.Forall₂ (Reads raw) toks ws
  order : toks.Pairwise Token.Before
  low : ∀ tok ∈ toks, lo ≤ tok.ptr
  high : ∀ tok ∈ toks, tok.stop ≤ hi

theorem Tokens.nil (raw : List UInt8) (lo hi : Nat) : Tokens raw lo hi [] [] :=
  { reads := .nil, order := .nil
    low := fun _ h => nomatch h
    high := fun _ h => nomatch h }

theorem Tokens.snoc {raw : List UInt8} {lo hi hi' : Nat} {tok : Token}
    (h : Tokens raw lo hi toks ws) (hread : Reads raw tok w) (hlo : lo ≤ tok.ptr)
    (hle : hi ≤ tok.ptr) (hgap : toks ≠ [] → 0 < tok.n → hi < tok.ptr) (hstop : tok.stop ≤ hi') :
    Tokens raw lo hi' (toks ++ [tok]) (ws ++ [w]) where
  reads := List.rel_append h.reads (.cons hread .nil)
  order := by
    rw [List.pairwise_append]
    refine ⟨h.order, List.pairwise_singleton _ _, fun a ha b hb => ?_⟩
    obtain rfl := List.mem_singleton.mp hb
    have hhigh := h.high a ha
    exact ⟨by omega, fun hn => Nat.lt_of_le_of_lt hhigh (hgap (List.ne_nil_of_mem ha) hn)⟩
  low := fun a ha => by
    rcases List.mem_append.mp ha with ha | ha
    · exact h.low a ha
    · obtain rfl := List.mem_singleton.mp ha
      exact hlo
  high := fun a ha => by
    rcases List.mem_append.mp ha with ha | ha
    · have hhigh := h.high a ha
      unfold Token.stop at hstop
      omega
    · obtain rfl := List.mem_singleton.mp ha
      exact hstop

def StartsWord (xs : List UInt8) : Prop := ∃ c ∈ xs.head?, c ∉ blankEol

/-- The scanner has come from `t` to `u` by finding tokens. -/
structure Scanned (t u : Text) (ys : List UInt8) (toks : List Token)
    (ws : List (List UInt8)) : Prop where
  raw : u.raw = t.raw
  rest : At u ys
  le : t.offset ≤ u.offset
  tokens : ∃ hi, Tokens t.raw t.offset hi toks ws ∧ hi ≤ u.offset ∧
    (toks ≠ [] → StartsWord ys → hi < u.offset)

theorem At.scanned (h : At t xs) : Scanned t t xs [] [] :=
  ⟨rfl, h, Nat.le_refl _, t.offset, .nil .., Nat.le_refl _, fun hne => absurd rfl hne⟩

theorem skipBlanks_head (xs : List UInt8) {c : UInt8} (h : (skipBlanks xs).head? = some c) :
    c ≠ space ∧ c ≠ tab := by
  have hhead := List.head?_dropWhile_not Text.isBlank xs
  rw [show xs.dropWhile Text.isBlank = skipBlanks xs from rfl, h] at hhead
  simpa [Text.isBlank] using hhead

theorem behind_head (xs : List UInt8) {escape : List UInt8} {c : UInt8}
    (h : (behind escape xs).head? = some c) :
    c ∈ escape := by
  have hhead := List.head?_dropWhile_not (fun c => decide (c ∉ escape)) xs
  rw [show xs.dropWhile (fun c => decide (c ∉ escape)) = behind escape xs from rfl, h] at hhead
  simpa using hhead

/-- A token that the blanks in front of it do not separate from the one before. -/
theorem startsWord_of_upTo {escape : List UInt8} (hcr : cr ∈ escape) (hlf : lf ∈ escape)
    (hblank : skipBlanks xs = xs) (hne : upTo escape xs ≠ []) : StartsWord xs := by
  cases xs with
  | nil => exact absurd rfl hne
  | cons c xs =>
      have hc : c ∉ escape := by
        intro hmem
        exact hne (List.takeWhile_cons_of_neg (by simpa using hmem))
      have hhead : c ≠ space ∧ c ≠ tab := skipBlanks_head (c :: xs) (by rw [hblank]; rfl)
      refine ⟨c, rfl, fun hmem => ?_⟩
      simp only [blankEol, List.mem_cons, List.not_mem_nil, or_false] at hmem
      rcases hmem with rfl | rfl | rfl | rfl
      · exact hhead.1 rfl
      · exact hhead.2 rfl
      · exact hc hcr
      · exact hc hlf

theorem trimmed_front (w : List UInt8) : trimmed w <+: w := List.rdropWhile_prefix _ w

theorem trimRight_eq {raw : List UInt8} {ptr : Nat} (w : List UInt8) :
    Spans raw ptr w → Text.trimRight raw ptr w.length = .ok (trimmed w).length := by
  induction w using List.reverseRecOn with
  | nil => exact fun _ => rfl
  | append_singleton w c ih =>
      intro h
      obtain ⟨hw, hc⟩ := spans_append h
      have hlast : raw[ptr + w.length]? = some c := hc 0 (Nat.one_pos)
      rw [List.length_append, List.length_singleton, Text.trimRight, hlast, trimmed]
      by_cases hspace : c = space
      · simp only [hspace, if_true]
        rw [ih hw, List.rdropWhile_concat_pos _ _ _ (by simp)]
        rfl
      · simp only [hspace, if_false]
        rw [List.rdropWhile_concat_neg _ _ _ (by simpa using hspace)]
        simp

theorem spans_of_prefix {raw w' : List UInt8} {ptr : Nat} (h : Spans raw ptr w) (hw : w' <+: w) :
    Spans raw ptr w' := by
  obtain ⟨more, rfl⟩ := hw
  exact (spans_append h).1

theorem upTo_append_behind (escape xs : List UInt8) : upTo escape xs ++ behind escape xs = xs :=
  List.takeWhile_append_dropWhile

theorem At.spans_upTo (h : At t xs) (escape : List UInt8) :
    Spans t.raw t.offset (upTo escape xs) := by
  rw [← upTo_append_behind escape xs] at h
  exact h.spans

theorem Scanned.snoc {tok : Token} (h : Scanned t u ys toks ws) (hraw : v.raw = u.raw)
    (hrest : At v rest) (hread : Reads t.raw tok w) (hle : u.offset ≤ tok.ptr)
    (hgap : toks ≠ [] → u.offset = tok.ptr → 0 < tok.n → StartsWord ys)
    (hstop : tok.stop ≤ v.offset) (hnext : StartsWord rest → tok.stop < v.offset) :
    Scanned t v rest (toks ++ [tok]) (ws ++ [w]) := by
  obtain ⟨hi, htokens, hhi, hapart⟩ := h.tokens
  have hstop' : tok.ptr ≤ tok.stop := Nat.le_add_right ..
  refine ⟨hraw.trans h.raw, hrest, ?_, tok.stop, ?_, hstop, fun _ => hnext⟩
  · exact Nat.le_trans h.le (by omega)
  · apply htokens.snoc hread (Nat.le_trans h.le hle) (Nat.le_trans hhi hle) ?_ (Nat.le_refl _)
    intro hne hn
    rcases Nat.lt_or_eq_of_le hle with hlt | heq
    · exact Nat.lt_of_le_of_lt hhi hlt
    · exact heq ▸ hapart hne (hgap hne heq hn)

theorem Scanned.dropLast {tok : Token} (h : Scanned t u ys (toks ++ [tok]) (ws ++ [w])) :
    Scanned t u ys toks ws := by
  obtain ⟨hi, htokens, hhi, hapart⟩ := h.tokens
  have hmem : ∀ {a}, a ∈ toks → a ∈ toks ++ [tok] := fun ha => List.mem_append_left _ ha
  refine ⟨h.raw, h.rest, h.le, hi, ⟨?_, ?_, ?_, ?_⟩, hhi, fun _ => hapart (by simp)⟩
  · have hreads := htokens.reads
    rw [List.forall₂_iff_get] at hreads ⊢
    obtain ⟨hlength, hget⟩ := hreads
    refine ⟨by simpa using hlength, fun i hi₁ hi₂ => ?_⟩
    have hi := hget i (by rw [List.length_append]; omega) (by rw [List.length_append]; omega)
    simpa [List.getElem_append_left hi₁, List.getElem_append_left hi₂] using hi
  · exact (List.pairwise_append.mp htokens.order).1
  · exact fun a ha => htokens.low a (hmem ha)
  · exact fun a ha => htokens.high a (hmem ha)

/-! ## Parts of lines -/

def wordAt (xs : List UInt8) : List UInt8 := upTo blankEol (skipBlanks xs)
def afterWord (xs : List UInt8) : List UInt8 := behind blankEol (skipBlanks xs)

def restAt (xs : List UInt8) : List UInt8 := trimmed (upTo eol (skipBlanks xs))
def afterRest (xs : List UInt8) : List UInt8 := behind eol (skipBlanks xs)

def nameAt (xs : List UInt8) : List UInt8 := trimmed (upTo colonEol (skipBlanks xs))

def afterColon (xs : List UInt8) : List UInt8 :=
  match behind colonEol (skipBlanks xs) with
  | [] => []
  | c :: rest => if c = colon then rest else c :: rest

theorem reads_upTo {raw : List UInt8} {escape : List UInt8} {ptr : Nat}
    (hspans : Spans raw ptr (upTo escape xs)) (hnul : 0 ∉ xs) (hw : w <+: upTo escape xs) :
    Reads raw ⟨ptr, w.length⟩ w where
  n := rfl
  spans := spans_of_prefix hspans hw
  noNul := fun hmem => hnul ((List.takeWhile_sublist _).subset (hw.subset hmem))

theorem Scanned.field (h : Scanned t u ys toks ws) (escape : List UInt8)
    (hcr : cr ∈ escape) (hlf : lf ∈ escape) :
    ∃ tok v, u.field escape = .ok (tok, v) ∧ v.raw = u.raw ∧
      At v (behind escape (skipBlanks ys)) ∧ tok.stop = v.offset ∧
      tok.n = (upTo escape (skipBlanks ys)).length ∧
      v.trim tok = .ok ⟨tok.ptr, (trimmed (upTo escape (skipBlanks ys))).length⟩ ∧
      ∀ w v' rest, w <+: upTo escape (skipBlanks ys) → v'.raw = u.raw → At v' rest →
        v.offset ≤ v'.offset → (StartsWord rest → v.offset < v'.offset) →
        Scanned t v' rest (toks ++ [⟨tok.ptr, w.length⟩]) (ws ++ [w]) := by
  obtain ⟨n, hskip, hat, hlength⟩ := h.rest.skipSpace
  obtain ⟨htoken, hbehind⟩ := hat.tokenWord escape
  have hspans : Spans u.raw (u.advance n).offset (upTo escape (skipBlanks ys)) :=
    hat.spans_upTo escape
  refine ⟨⟨(u.advance n).offset, (upTo escape (skipBlanks ys)).length⟩, _, ?_, ?_, hbehind, ?_, ?_,
    ?_, ?_⟩
  · rw [Text.field, hskip]
    exact htoken
  · rfl
  · rfl
  · rfl
  · rw [Text.trim, Text.raw_advance, Text.raw_advance, trimRight_eq _ hspans]
    rfl
  · intro w v' rest hw hraw hrest hle hnext
    have hcut : (u.advance n).offset + w.length ≤ _ := Nat.add_le_add_left hw.length_le _
    apply h.snoc hraw hrest (reads_upTo (h.raw ▸ hspans) hat.noNul hw) (Nat.le_add_right ..)
    · intro _ heq hn
      have hn0 : n = 0 := Nat.left_eq_add.mp heq
      have hself : skipBlanks ys = ys := skipBlanks_eq_self (by omega)
      apply startsWord_of_upTo hcr hlf hself
      rw [hself] at hw
      rintro hnil
      rw [hnil, List.prefix_nil] at hw
      subst hw
      exact absurd hn (Nat.lt_irrefl 0)
    · exact Nat.le_trans hcut hle
    · exact fun hword => Nat.lt_of_le_of_lt hcut (hnext hword)

theorem not_startsWord_eol {escape : List UInt8} (hsub : escape ⊆ blankEol) :
    ¬ StartsWord (behind escape xs) := by
  rintro ⟨c, hc, hword⟩
  exact hword (hsub (behind_head xs hc))

theorem Scanned.word (h : Scanned t u ys toks ws) :
    ∃ tok v, u.word = .ok (tok, v) ∧ tok.n = (wordAt ys).length ∧ tok.stop = v.offset ∧
      Scanned t v (afterWord ys) (toks ++ [tok]) (ws ++ [wordAt ys]) := by
  obtain ⟨tok, v, hfield, hraw, hat, hstop, hn, -, hscan⟩ :=
    h.field blankEol (by decide) (by decide)
  refine ⟨tok, v, hfield, hn, hstop, ?_⟩
  have hscan := hscan _ v _ (List.prefix_refl _) hraw hat (Nat.le_refl _)
    fun hword => absurd hword (not_startsWord_eol (List.Subset.refl _))
  rwa [← hn] at hscan

theorem Scanned.restOfLine (h : Scanned t u ys toks ws) :
    ∃ tok v, u.restOfLine = .ok (tok, v) ∧ tok.n = (restAt ys).length ∧
      Scanned t v (afterRest ys) (toks ++ [tok]) (ws ++ [restAt ys]) := by
  obtain ⟨tok, v, hfield, hraw, hat, -, -, htrim, hscan⟩ :=
    h.field eol (by decide) (by decide)
  refine ⟨⟨tok.ptr, (restAt ys).length⟩, v, ?_, rfl, ?_⟩
  · rw [Text.restOfLine, hfield]
    change v.trim tok >>= _ = _
    rw [htrim]
    rfl
  · apply hscan _ v _ (trimmed_front _) hraw hat (Nat.le_refl _)
    exact fun hword => absurd hword (not_startsWord_eol (by decide))

theorem Scanned.beforeColon (h : Scanned t u ys toks ws) :
    ∃ tok v, u.beforeColon = .ok (tok, v) ∧ tok.n = (nameAt ys).length ∧
      Scanned t v (afterColon ys) (toks ++ [tok]) (ws ++ [nameAt ys]) := by
  obtain ⟨tok, v, hfield, hraw, hat, -, -, htrim, hscan⟩ :=
    h.field colonEol (by decide) (by decide)
  have hcolon : u.beforeColon =
      .ok (⟨tok.ptr, (nameAt ys).length⟩,
        if (behind colonEol (skipBlanks ys)).headD 0 = colon then v.advance 1 else v) := by
    rw [Text.beforeColon, hfield]
    change v.trim tok >>= _ = _
    rw [htrim]
    change v.char >>= _ = _
    rw [hat.char]
    rfl
  refine ⟨⟨tok.ptr, (nameAt ys).length⟩, _, hcolon, rfl, ?_⟩
  unfold afterColon
  cases hrest : behind colonEol (skipBlanks ys) with
  | nil =>
      rw [hrest] at hat
      apply hscan _ _ _ (trimmed_front _) hraw hat (Nat.le_refl _)
      rintro ⟨c, hc, -⟩
      cases hc
  | cons c rest =>
      rw [hrest] at hat
      by_cases hc : c = colon
      · simp only [List.headD_cons, hc, if_true]
        rw [hc] at hat
        apply hscan _ (v.advance 1) _ (trimmed_front _) hraw (At.advance (w := [colon]) hat)
        · exact Nat.le_succ _
        · exact fun _ => Nat.lt_succ_self _
      · simp only [List.headD_cons, hc, if_false]
        apply hscan _ _ _ (trimmed_front _) hraw hat (Nat.le_refl _)
        rintro ⟨d, hd, hword⟩
        obtain rfl : c = d := Option.some.inj hd
        have hmem : c ∈ colonEol := behind_head (skipBlanks ys) (by rw [hrest]; rfl)
        simp only [colonEol, List.mem_cons, hc, false_or] at hmem
        rcases hmem with rfl | rfl | hmem
        · exact absurd (by decide) hword
        · exact absurd (by decide) hword
        · exact absurd hmem List.not_mem_nil

/-! ## The end of a line -/

/-- What was written lies behind the offset of `t`. -/
structure Frame (t v : Text) : Prop where
  length : v.raw.length = t.raw.length
  le : t.offset ≤ v.offset
  same : ∀ i, i < t.offset → v.raw[i]? = t.raw[i]?

theorem Frame.trans (h : Frame t u) (h' : Frame u v) : Frame t v where
  length := h'.length.trans h.length
  le := Nat.le_trans h.le h'.le
  same := fun i hi => (h'.same i (Nat.lt_of_lt_of_le hi h.le)).trans (h.same i hi)

theorem Frame.of_nulAt (positions : List Nat) (hraw : v.raw = nulAt t.raw positions)
    (hle : t.offset ≤ v.offset) (hlow : ∀ i ∈ positions, t.offset ≤ i) : Frame t v where
  length := by rw [hraw, length_nulAt]
  le := hle
  same := fun i hi => by
    rw [hraw, getElem?_nulAt_of_not_mem]
    exact fun hmem => absurd hi (Nat.not_lt.mpr (hlow i hmem))

structure Shown (t : Text) (ptr : Nat) (w : List UInt8) : Prop where
  isString : IsString t.raw ptr w
  lt : ptr + w.length < t.offset

theorem Shown.frame {ptr : Nat} (h : Shown t ptr w) (hframe : Frame t v) : Shown v ptr w where
  isString :=
    { spans := fun i hi => by
        have hlt := h.lt
        rw [hframe.same _ (by omega), h.isString.spans i hi]
      terminator := by rw [hframe.same _ h.lt, h.isString.terminator]
      noNul := h.isString.noNul }
  lt := Nat.lt_of_lt_of_le h.lt hframe.le

theorem at_nil : At t [] ↔ t.raw[t.offset]? = some 0 := by
  constructor
  · intro h
    obtain ⟨junk, hdrop⟩ := h.getElem? 0
    exact hdrop
  · intro h
    refine ⟨⟨t.raw.drop (t.offset + 1), ?_, fun hne => absurd rfl hne⟩, List.not_mem_nil⟩
    obtain ⟨hlt, hget⟩ := List.getElem?_eq_some_iff.mp h
    rw [← hget, List.nil_append, List.drop_eq_getElem_cons hlt]

theorem At.nulAt (h : At t xs) (positions : List Nat)
    (hbefore : xs ≠ [] → ∀ i ∈ positions, i < t.offset) :
    At { t with raw := nulAt t.raw positions } xs := by
  cases xs with
  | nil =>
      rw [at_nil] at h ⊢
      exact getElem?_nulAt_of_nul _ _ h
  | cons x xs =>
      obtain ⟨junk, hdrop, hjunk⟩ := h.drop
      refine ⟨⟨junk, ?_, hjunk⟩, h.noNul⟩
      rw [← hdrop]
      apply List.ext_getElem?
      intro i
      rw [List.getElem?_drop, List.getElem?_drop]
      apply getElem?_nulAt_of_not_mem
      intro hmem
      have hlt := hbefore (List.cons_ne_nil x xs) _ hmem
      exact absurd hlt (Nat.not_lt.mpr (Nat.le_add_right ..))

theorem terminateAll_eq (toks : List Token) :
    ∀ v : Text, (∀ tok ∈ toks, tok.stop < v.raw.length) →
      v.terminateAll toks = .ok { v with raw := nulAt v.raw (toks.map Token.stop) } := by
  induction toks with
  | nil => exact fun _ _ => rfl
  | cons tok toks ih =>
      intro v hlt
      have hterminate : v.terminate tok = .ok { v with raw := v.raw.set tok.stop 0 } :=
        if_pos (hlt tok (List.mem_cons_self ..))
      rw [Text.terminateAll, hterminate]
      change Text.terminateAll _ toks = _
      rw [ih _ fun tok' hmem => by
        rw [List.length_set]
        exact hlt tok' (List.mem_cons_of_mem _ hmem)]
      rfl

/-- A computation that fails where the line has no end, and else leaves what follows. -/
inductive Outcome {α : Type} (r : Except Stop α) :
    Option (List UInt8) → (List UInt8 → α → Prop) → Prop
  | fails {P : List UInt8 → α → Prop} (h : r = .error .failed) : Outcome r none P
  | leaves {P : List UInt8 → α → Prop} {rest : List UInt8} {a : α} (h : r = .ok a)
      (hP : P rest a) : Outcome r (some rest) P

theorem Outcome.bind {α β : Type} {r : Except Stop α} {rest? : Option (List UInt8)}
    {P : List UInt8 → α → Prop} {f : α → Except Stop β} {Q : List UInt8 → β → Prop}
    (h : Outcome r rest? P)
    (hf : ∀ rest a, rest? = some rest → P rest a → ∃ b, f a = .ok b ∧ Q rest b) :
    Outcome (r >>= f) rest? Q := by
  cases h with
  | fails hr =>
      subst hr
      exact .fails rfl
  | leaves hr hP =>
      subst hr
      obtain ⟨b, hb, hQ⟩ := hf _ _ rfl hP
      exact .leaves hb hQ

theorem Outcome.imp {α : Type} {r : Except Stop α} {rest? : Option (List UInt8)}
    {P Q : List UInt8 → α → Prop} (h : Outcome r rest? P)
    (himp : ∀ rest a, rest? = some rest → P rest a → Q rest a) : Outcome r rest? Q := by
  cases h with
  | fails hr => exact .fails hr
  | leaves hr hP => exact .leaves hr (himp _ _ rfl hP)

theorem At.lineFeed (h : At t xs) :
    Outcome (do
        let c ← t.char
        if c = lf then .ok (t.advance 1) else if c = 0 then .ok t else .error .failed)
      (afterLineFeed xs) fun rest v =>
      v.raw = t.raw ∧ At v rest ∧ t.offset ≤ v.offset ∧ (xs ≠ [] → t.offset < v.offset) := by
  rw [h.char]
  cases xs with
  | nil => exact .leaves rfl ⟨rfl, h, Nat.le_refl _, fun hne => absurd rfl hne⟩
  | cons c rest =>
      have hc : c ≠ 0 := fun hc => h.noNul (hc ▸ List.mem_cons_self ..)
      change Outcome (if c = lf then _ else if c = 0 then _ else _) _ _
      by_cases hlf : c = lf
      · rw [if_pos hlf, afterLineFeed, if_pos hlf]
        refine .leaves rfl ⟨rfl, At.advance (w := [c]) h, Nat.le_succ _, fun _ => ?_⟩
        exact Nat.lt_succ_self _
      · rw [if_neg hlf, if_neg hc, afterLineFeed, if_neg hlf]
        exact .fails rfl

theorem At.tokenCrlf (h : At t xs) :
    Outcome t.tokenCrlf (lineEnd xs) fun rest v =>
      v.raw = t.raw ∧ At v rest ∧ t.offset ≤ v.offset ∧ (xs ≠ [] → t.offset < v.offset) := by
  unfold Text.tokenCrlf lineEnd
  rw [h.char]
  cases xs with
  | nil => exact h.lineFeed
  | cons c rest =>
      by_cases hcr : c = cr
      · subst hcr
        have hrest : At (t.advance 1) rest := At.advance (w := [cr]) h
        have hlf := hrest.lineFeed
        apply hlf.imp
        rintro rest' v - ⟨hraw, hat, hle, -⟩
        exact ⟨hraw, hat, Nat.le_of_succ_le hle, fun _ => hle⟩
      · have hlf := h.lineFeed
        simp only [List.head?_cons, Option.some.injEq, hcr, if_false]
        change Outcome (Except.bind (Except.ok c) _) _ _
        simp only [Except.bind, hcr, if_false]
        exact hlf

/-! ## Cutting the tokens -/

structure Closed (t v : Text) (ys rest : List UInt8) (toks : List Token)
    (ws : List (List UInt8)) : Prop where
  rest : At v rest
  frame : Frame t v
  strings : List.Forall₂ (fun tok w => IsString v.raw tok.ptr w) toks ws
  shown : ys ≠ [] → List.Forall₂ (fun tok w => Shown v tok.ptr w) toks ws

def Token.Apart (a b : Token) : Prop :=
  (b.stop < a.ptr ∨ a.stop ≤ b.stop) ∧ (a.stop < b.ptr ∨ b.stop ≤ a.stop)

instance : Std.Symm Token.Apart := ⟨fun _ _ h => ⟨h.2, h.1⟩⟩

theorem Token.Before.apart {a b : Token} (h : a.Before b) : a.Apart b := by
  obtain ⟨hle, hlt⟩ := h
  unfold Token.Apart Token.stop at *
  rcases Nat.eq_zero_or_pos b.n with hn | hn
  · omega
  · have hlt := hlt hn
    omega

theorem Tokens.apart {raw : List UInt8} {lo hi : Nat} (h : Tokens raw lo hi toks ws) :
    ∀ a ∈ toks, ∀ b ∈ toks, a.Apart b := by
  intro a ha b hb
  apply List.Pairwise.forall_of_forall _ (h.order.imp Token.Before.apart) ha hb
  exact fun a _ => ⟨.inr (Nat.le_refl _), .inr (Nat.le_refl _)⟩

theorem Tokens.stop_ge {raw : List UInt8} {lo hi : Nat} (h : Tokens raw lo hi toks ws) :
    ∀ i ∈ toks.map Token.stop, lo ≤ i := by
  intro i hi
  obtain ⟨tok, htok, rfl⟩ := List.mem_map.mp hi
  exact Nat.le_trans (h.low tok htok) (Nat.le_add_right ..)

theorem Tokens.isString_behind {raw : List UInt8} {lo hi : Nat} (h : Tokens raw lo hi toks ws)
    (hlt : hi < raw.length) {later : List Nat} (hlater : ∀ i ∈ later, hi ≤ i) :
    List.Forall₂ (fun tok w => tok.stop ≤ hi ∧ tok.n = w.length ∧
      IsString (nulAt raw (later ++ toks.map Token.stop)) tok.ptr w) toks ws := by
  have hmem : List.Forall₂ (fun tok w => tok ∈ toks ∧ Reads raw tok w) toks ws :=
    (List.forall₂_and_left _ _).mpr ⟨fun _ hmem => hmem, h.reads⟩
  apply hmem.imp
  rintro tok w ⟨hmem, hreads⟩
  have hhigh := h.high tok hmem
  have hstop : tok.ptr + w.length = tok.stop := by rw [← hreads.n, Token.stop]
  refine ⟨hhigh, hreads.n, isString_nulAt hreads.spans hreads.noNul ?_ ?_ ?_⟩
  · rw [hstop]
    exact List.mem_append_right _ (List.mem_map_of_mem hmem)
  · omega
  · intro i hi
    rw [hstop]
    rcases List.mem_append.mp hi with hi | hi
    · exact .inr (Nat.le_trans hhigh (hlater i hi))
    · obtain ⟨other, hother, rfl⟩ := List.mem_map.mp hi
      exact (h.apart tok hmem other hother).1

theorem Tokens.isString {raw : List UInt8} {lo hi : Nat} (h : Tokens raw lo hi toks ws)
    (hlt : hi < raw.length) :
    List.Forall₂ (fun tok w => tok.stop ≤ hi ∧ tok.n = w.length ∧
      IsString (nulAt raw (toks.map Token.stop)) tok.ptr w) toks ws :=
  h.isString_behind hlt (fun _ hmem => absurd hmem List.not_mem_nil)

theorem Scanned.crlf (h : Scanned t u ys toks ws) :
    Outcome u.tokenCrlf (lineEnd ys) fun rest v =>
      v.raw = t.raw ∧ At v rest ∧ t.offset ≤ v.offset ∧
        ∃ v', v.terminateAll toks = .ok v' ∧ Closed t v' ys rest toks ws := by
  obtain ⟨hi, htokens, hhi, -⟩ := h.tokens
  apply h.rest.tokenCrlf.imp
  rintro rest v hend ⟨hraw, hat, hle, hlt⟩
  have hlength : hi < t.raw.length := by
    have hoffset := h.rest.offset_lt
    rw [h.raw] at hoffset
    omega
  have hvraw : v.raw = t.raw := hraw.trans h.raw
  refine ⟨hvraw, hat, Nat.le_trans h.le hle, _, terminateAll_eq toks v fun tok hmem => ?_, ?_⟩
  · rw [hvraw]
    exact Nat.lt_of_le_of_lt (htokens.high tok hmem) hlength
  · refine ⟨hat.nulAt _ ?_, ?_, ?_, fun hne => ?_⟩
    · intro hne i hi
      obtain ⟨tok, htok, rfl⟩ := List.mem_map.mp hi
      have hys : ys ≠ [] := by
        rintro rfl
        exact hne (Option.some.inj hend.symm)
      exact Nat.lt_of_le_of_lt (Nat.le_trans (htokens.high tok htok) hhi) (hlt hys)
    · apply Frame.of_nulAt (toks.map Token.stop)
      · rw [hvraw]
      · exact Nat.le_trans h.le hle
      · exact htokens.stop_ge
    · apply (htokens.isString hlength).imp
      rintro tok w ⟨-, -, hstring⟩
      exact hvraw ▸ hstring
    · apply (htokens.isString hlength).imp
      rintro tok w ⟨hstop, hn, hstring⟩
      have hoffset := hlt hne
      refine ⟨hvraw ▸ hstring, ?_⟩
      unfold Token.stop at hstop
      change tok.ptr + w.length < v.offset
      omega

end GbStream.Sdp
