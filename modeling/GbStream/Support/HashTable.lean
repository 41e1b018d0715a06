import Mathlib.Data.List.Nodup
import Mathlib.Logic.Function.Basic

/-!
# Chained hash tables

Buckets of entries that are searched by key from the front.  In a table whose entries lie in
the buckets of their keys, with no key twice, a search finds exactly the entry of its key.
-/

namespace GbStream.Support.HashTable

variable {κ α : Type}

/-! ## Lists searched by key -/

section Seek

variable [DecidableEq κ] {key : α → κ} {l : List α} {k : κ} {a : α}

/-- The first entry with the key `k`. -/
def seek (key : α → κ) (k : κ) (l : List α) : Option α := l.find? fun a => key a = k

theorem mem_of_seek (h : seek key k l = some a) : a ∈ l ∧ key a = k :=
  ⟨List.mem_of_find?_eq_some h, by simpa using List.find?_some h⟩

theorem seek_eq_none_iff : seek key k l = none ↔ ∀ a ∈ l, key a ≠ k := by
  simp [seek]

/-- Where no key occurs twice, the entry that is found is the entry of its key. -/
theorem seek_eq_some_iff (hl : (l.map key).Nodup) : seek key k l = some a ↔ a ∈ l ∧ key a = k := by
  constructor
  · exact mem_of_seek
  · rintro ⟨ha, hk⟩
    rcases hseek : seek key k l with _ | b
    · exact absurd hk (seek_eq_none_iff.mp hseek a ha)
    · obtain ⟨hb, hkb⟩ := mem_of_seek hseek
      rw [List.inj_on_of_nodup_map hl hb ha (hkb.trans hk.symm)]

theorem nodup_append (hl : (l.map key).Nodup) (hnone : seek key (key a) l = none) :
    ((l ++ [a]).map key).Nodup := by
  rw [List.map_append, List.map_singleton, List.nodup_append]
  refine ⟨hl, List.nodup_singleton _, fun k hk k' hk' heq => ?_⟩
  obtain ⟨b, hb, rfl⟩ := List.mem_map.mp hk
  rw [List.mem_singleton.mp hk'] at heq
  exact seek_eq_none_iff.mp hnone b hb heq

theorem seek_append_of_some (h : seek key k l = some a) (l' : List α) :
    seek key k (l ++ l') = some a := by
  unfold seek at h ⊢
  rw [List.find?_append, h, Option.some_or]

theorem seek_eraseP_of_some {p : α → Bool} (h : seek key k l = some a) (hp : p a = false) :
    seek key k (l.eraseP p) = some a := by
  induction l with
  | nil => cases h
  | cons x l ih =>
      unfold seek at h ih ⊢
      rw [List.find?_cons] at h
      by_cases hx : key x = k
      · rw [decide_eq_true hx] at h
        obtain rfl := Option.some.inj h
        rw [List.eraseP_cons_of_neg (by simp [hp]), List.find?_cons, decide_eq_true hx]
      · rw [decide_eq_false hx] at h
        by_cases hpx : p x = true
        · rw [List.eraseP_cons_of_pos hpx]
          exact h
        · rw [List.eraseP_cons_of_neg hpx, List.find?_cons, decide_eq_false hx]
          exact ih h

/-- Where no key occurs twice, taking out the first entry of a key leaves the other keys. -/
theorem mem_eraseP_iff (hl : (l.map key).Nodup) :
    a ∈ l.eraseP (fun x => key x = k) ↔ a ∈ l ∧ key a ≠ k := by
  induction l with
  | nil => simp
  | cons x l ih =>
      rw [List.map_cons, List.nodup_cons] at hl
      obtain ⟨hx, hl⟩ := hl
      by_cases hk : key x = k
      · rw [List.eraseP_cons_of_pos (by simpa using hk), List.mem_cons]
        have hbehind : a ∈ l → key a ≠ k := fun ha hak =>
          hx (List.mem_map.mpr ⟨a, ha, hak.trans hk.symm⟩)
        constructor
        · exact fun ha => ⟨.inr ha, hbehind ha⟩
        · rintro ⟨rfl | ha, hne⟩
          · exact absurd hk hne
          · exact ha
      · rw [List.eraseP_cons_of_neg (by simpa using hk), List.mem_cons, List.mem_cons, ih hl]
        constructor
        · rintro (rfl | ⟨ha, hne⟩)
          · exact ⟨.inl rfl, hk⟩
          · exact ⟨.inr ha, hne⟩
        · rintro ⟨rfl | ha, hne⟩
          · exact .inl rfl
          · exact .inr ⟨ha, hne⟩

/-- A change that leaves the keys alone changes what is found in the same way. -/
theorem seek_map {f : α → α} (hkey : ∀ a, key (f a) = key a) :
    seek key k (l.map f) = (seek key k l).map f := by
  unfold seek
  rw [List.find?_map]
  simp only [Function.comp_def, hkey]

end Seek

/-! ## Buckets -/

abbrev Buckets (α : Type) := Nat → List α

def append (i : Nat) (a : α) (b : Buckets α) : Buckets α := Function.update b i (b i ++ [a])

/-- The first entry of the bucket with the property `p` is taken out. -/
def remove (i : Nat) (p : α → Bool) (b : Buckets α) : Buckets α :=
  Function.update b i ((b i).eraseP p)

/-- The entries with the property `p` are changed in place. -/
def modify (p : α → Bool) (f : α → α) (b : Buckets α) : Buckets α := fun i =>
  (b i).map fun a => if p a then f a else a

/-! Tables of names for the entries. -/

section Map

variable {β : Type} {f : α → β} {b : Buckets α} {i : Nat} {a : α}

theorem append_map : append i (f a) (fun j => (b j).map f) = fun j => (append i a b j).map f := by
  funext j
  unfold append
  rcases eq_or_ne j i with rfl | hne
  · rw [Function.update_self, Function.update_self, List.map_append, List.map_singleton]
  · rw [Function.update_of_ne hne, Function.update_of_ne hne]

theorem eraseP_map_congr {p : α → Bool} {q : β → Bool} {l : List α}
    (hpq : ∀ a ∈ l, q (f a) = p a) : (l.map f).eraseP q = (l.eraseP p).map f := by
  induction l with
  | nil => rfl
  | cons a l ih =>
      have hhead := hpq a List.mem_cons_self
      have htail := ih fun a ha => hpq a (List.mem_cons_of_mem _ ha)
      rw [List.map_cons, List.eraseP_cons, List.eraseP_cons, hhead, htail]
      cases p a <;> rfl

theorem remove_map {p : α → Bool} {q : β → Bool} (hpq : ∀ a ∈ b i, q (f a) = p a) :
    remove i q (fun j => (b j).map f) = fun j => (remove i p b j).map f := by
  funext j
  unfold remove
  rcases eq_or_ne j i with rfl | hne
  · rw [Function.update_self, Function.update_self, eraseP_map_congr hpq]
  · rw [Function.update_of_ne hne, Function.update_of_ne hne]

theorem map_modify {p : α → Bool} {g : α → α} (hg : ∀ a, f (g a) = f a) :
    (fun j => (modify p g b j).map f) = fun j => (b j).map f := by
  funext j
  unfold modify
  rw [List.map_map]
  refine List.map_congr_left fun a _ => ?_
  show f (if p a then g a else a) = f a
  split
  · exact hg a
  · rfl

end Map

theorem length_append_le (b : Buckets α) (i j : Nat) (a : α) :
    (append i a b j).length ≤ (b j).length + 1 := by
  unfold append
  rcases eq_or_ne j i with rfl | hne
  · exact Nat.le_of_eq (by rw [Function.update_self, List.length_append, List.length_singleton])
  · rw [Function.update_of_ne hne]
    exact Nat.le_succ _

theorem length_remove_le (b : Buckets α) (i j : Nat) (p : α → Bool) :
    (remove i p b j).length ≤ (b j).length := by
  unfold remove
  rcases eq_or_ne j i with rfl | hne
  · rw [Function.update_self]
    exact List.length_eraseP_le
  · exact Nat.le_of_eq (by rw [Function.update_of_ne hne])

theorem remove_of_eq_nil {b : Buckets α} {i j : Nat} {p : α → Bool} (h : b j = []) :
    remove i p b j = [] := by
  unfold remove
  rcases eq_or_ne j i with rfl | hne
  · rw [Function.update_self, h, List.eraseP_nil]
  · rw [Function.update_of_ne hne, h]

/-- Some bucket has the entry. -/
def Holds (b : Buckets α) (a : α) : Prop := ∃ i, a ∈ b i

/-- The entries lie in the buckets of their keys, and no key occurs twice. -/
structure WellFormed (hash : κ → Nat) (key : α → κ) (b : Buckets α) : Prop where
  bucket : ∀ {i a}, a ∈ b i → hash (key a) = i
  distinct : ∀ i, ((b i).map key).Nodup

section WellFormed

variable {hash : κ → Nat} {key : α → κ} {b : Buckets α} {i : Nat} {a a' x : α} {p : α → Bool}
  {f : α → α} {k : κ}

theorem wellFormed_empty : WellFormed hash key fun _ => [] where
  bucket := fun ha => absurd ha List.not_mem_nil
  distinct := fun _ => List.nodup_nil

theorem WellFormed.mem_bucket (h : WellFormed hash key b) (ha : Holds b a) :
    a ∈ b (hash (key a)) := by
  obtain ⟨i, hi⟩ := ha
  rwa [h.bucket hi]

theorem WellFormed.unique (h : WellFormed hash key b) (ha : Holds b a) (ha' : Holds b a')
    (hkey : key a = key a') : a = a' := by
  have hmem := h.mem_bucket ha
  have hmem' := h.mem_bucket ha'
  rw [← hkey] at hmem'
  exact List.inj_on_of_nodup_map (h.distinct _) hmem hmem' hkey

section Find

variable [DecidableEq κ]

def find (hash : κ → Nat) (key : α → κ) (k : κ) (b : Buckets α) : Option α :=
  seek key k (b (hash k))

theorem WellFormed.find_eq_some_iff (h : WellFormed hash key b) :
    find hash key k b = some a ↔ Holds b a ∧ key a = k := by
  unfold find
  rw [seek_eq_some_iff (h.distinct _)]
  constructor
  · rintro ⟨ha, hk⟩
    exact ⟨⟨_, ha⟩, hk⟩
  · rintro ⟨ha, rfl⟩
    exact ⟨h.mem_bucket ha, rfl⟩

theorem WellFormed.find_eq_none_iff (h : WellFormed hash key b) :
    find hash key k b = none ↔ ∀ a, Holds b a → key a ≠ k := by
  unfold find
  rw [seek_eq_none_iff]
  constructor
  · rintro hall a ha rfl
    exact hall a (h.mem_bucket ha) rfl
  · exact fun hall a ha => hall a ⟨_, ha⟩

theorem find_append_of_some (hfind : find hash key k b = some x) :
    find hash key k (append i a b) = some x := by
  unfold find append at *
  by_cases hi : hash k = i
  · subst hi
    rw [Function.update_self]
    exact seek_append_of_some hfind _
  · rwa [Function.update_of_ne hi]

theorem find_remove_of_some (hfind : find hash key k b = some x) (hp : p x = false) :
    find hash key k (remove i p b) = some x := by
  unfold find remove at *
  by_cases hi : hash k = i
  · subst hi
    rw [Function.update_self]
    exact seek_eraseP_of_some hfind hp
  · rwa [Function.update_of_ne hi]

theorem WellFormed.append (h : WellFormed hash key b) (hnone : find hash key (key a) b = none) :
    WellFormed hash key (append (hash (key a)) a b) where
  bucket := by
    intro i x hx
    unfold HashTable.append at hx
    by_cases hi : i = hash (key a)
    · subst hi
      rw [Function.update_self, List.mem_append, List.mem_singleton] at hx
      rcases hx with hx | rfl
      · exact h.bucket hx
      · rfl
    · rw [Function.update_of_ne hi] at hx
      exact h.bucket hx
  distinct := by
    intro i
    unfold HashTable.append
    by_cases hi : i = hash (key a)
    · subst hi
      rw [Function.update_self]
      exact nodup_append (h.distinct _) hnone
    · rw [Function.update_of_ne hi]
      exact h.distinct i

end Find

theorem holds_append : Holds (append i a b) x ↔ Holds b x ∨ x = a := by
  unfold Holds append
  constructor
  · rintro ⟨j, hj⟩
    by_cases hji : j = i
    · subst hji
      rw [Function.update_self, List.mem_append, List.mem_singleton] at hj
      exact hj.imp_left fun hx => ⟨j, hx⟩
    · rw [Function.update_of_ne hji] at hj
      exact .inl ⟨j, hj⟩
  · rintro (⟨j, hj⟩ | rfl)
    · refine ⟨j, ?_⟩
      by_cases hji : j = i
      · subst hji
        rw [Function.update_self]
        exact List.mem_append_left _ hj
      · rwa [Function.update_of_ne hji]
    · refine ⟨i, ?_⟩
      rw [Function.update_self]
      exact List.mem_append_right _ List.mem_cons_self

theorem WellFormed.remove (h : WellFormed hash key b) : WellFormed hash key (remove i p b) := by
  have hsub : ∀ j, (HashTable.remove i p b j).Sublist (b j) := by
    intro j
    unfold HashTable.remove
    by_cases hji : j = i
    · subst hji
      rw [Function.update_self]
      exact List.eraseP_sublist
    · rw [Function.update_of_ne hji]
  exact
    { bucket := fun ha => h.bucket ((hsub _).mem ha)
      distinct := fun j => ((hsub j).map key).nodup (h.distinct j) }

theorem WellFormed.holds_remove (h : WellFormed hash key b) (ha : a ∈ b i) (hp : p a = true)
    (honly : ∀ x ∈ b i, p x = true → x = a) :
    Holds (HashTable.remove i p b) x ↔ Holds b x ∧ x ≠ a := by
  have herase : x ∈ (b i).eraseP p ↔ x ∈ b i ∧ x ≠ a := by
    obtain ⟨front, behind, hsplit, hfront⟩ : ∃ front behind, b i = front ++ a :: behind ∧
        ∀ x ∈ front, ¬ p x = true := by
      obtain ⟨front, behind, hsplit⟩ := List.append_of_mem ha
      have hnodup := (h.distinct i).of_map
      rw [hsplit] at hnodup
      refine ⟨front, behind, hsplit, fun x hx hpx => ?_⟩
      have hxa := honly x (by rw [hsplit]; exact List.mem_append_left _ hx) hpx
      subst hxa
      exact (List.nodup_append.mp hnodup).2.2 x hx x List.mem_cons_self rfl
    have hnodup := (h.distinct i).of_map
    rw [hsplit] at hnodup
    have hbehind : a ∉ front ++ behind := (List.nodup_middle.mp hnodup).notMem
    rw [hsplit, List.eraseP_append_right _ hfront, List.eraseP_cons_of_pos hp]
    constructor
    · intro hx
      refine ⟨?_, fun hxa => hbehind (hxa ▸ hx)⟩
      rw [List.mem_append] at hx
      rw [List.mem_append, List.mem_cons]
      exact hx.imp_right .inr
    · rintro ⟨hx, hne⟩
      rw [List.mem_append, List.mem_cons] at hx
      rw [List.mem_append]
      exact hx.imp_right fun hx => hx.resolve_left hne
  unfold Holds HashTable.remove
  constructor
  · rintro ⟨j, hj⟩
    by_cases hji : j = i
    · subst hji
      rw [Function.update_self, herase] at hj
      exact ⟨⟨j, hj.1⟩, hj.2⟩
    · rw [Function.update_of_ne hji] at hj
      refine ⟨⟨j, hj⟩, ?_⟩
      rintro rfl
      exact hji ((h.bucket hj).symm.trans (h.bucket ha))
  · rintro ⟨⟨j, hj⟩, hne⟩
    refine ⟨j, ?_⟩
    by_cases hji : j = i
    · subst hji
      rw [Function.update_self, herase]
      exact ⟨hj, hne⟩
    · rwa [Function.update_of_ne hji]

theorem holds_modify : Holds (modify p f b) x ↔ ∃ y, Holds b y ∧ x = if p y then f y else y := by
  unfold Holds modify
  constructor
  · rintro ⟨i, hi⟩
    obtain ⟨y, hy, rfl⟩ := List.mem_map.mp hi
    exact ⟨y, ⟨i, hy⟩, rfl⟩
  · rintro ⟨y, ⟨i, hy⟩, rfl⟩
    exact ⟨i, List.mem_map.mpr ⟨y, hy, rfl⟩⟩

theorem WellFormed.modify (h : WellFormed hash key b) (hkey : ∀ a, key (f a) = key a) :
    WellFormed hash key (modify p f b) := by
  have hsame : ∀ a, key (if p a then f a else a) = key a := by
    intro a
    split
    · exact hkey a
    · rfl
  have hmap : ∀ i, (HashTable.modify p f b i).map key = (b i).map key := by
    intro i
    unfold HashTable.modify
    rw [List.map_map]
    exact List.map_congr_left fun a _ => hsame a
  refine ⟨fun {i a} ha => ?_, fun i => by rw [hmap]; exact h.distinct i⟩
  obtain ⟨y, hy, rfl⟩ := List.mem_map.mp ha
  rw [hsame]
  exact h.bucket hy

end WellFormed

/-! ## Entries with addresses -/

def Distinct {ι : Type} (address : α → ι) (b : Buckets α) : Prop :=
  ∀ ⦃a a'⦄, Holds b a → Holds b a' → address a = address a' → a = a'

section Distinct

variable {ι : Type} {address : α → ι} {b : Buckets α} {i : Nat} {a x : α} {f : α → α}

theorem Distinct.append (h : Distinct address b) (hfresh : ∀ x, Holds b x → address x ≠ address a) :
    Distinct address (append i a b) := by
  intro x x' hx hx' heq
  rcases holds_append.mp hx with hold | rfl
  · rcases holds_append.mp hx' with hold' | rfl
    · exact h hold hold' heq
    · exact absurd heq (hfresh x hold)
  · rcases holds_append.mp hx' with hold' | rfl
    · exact absurd heq.symm (hfresh x' hold')
    · rfl

theorem Distinct.modify {p : α → Bool} (h : Distinct address b)
    (haddress : ∀ a, address (f a) = address a) : Distinct address (modify p f b) := by
  have hsame : ∀ a, address (if p a then f a else a) = address a := by
    intro a
    split
    · exact haddress a
    · rfl
  intro x x' hx hx' heq
  obtain ⟨y, hy, rfl⟩ := holds_modify.mp hx
  obtain ⟨y', hy', rfl⟩ := holds_modify.mp hx'
  rw [hsame, hsame] at heq
  rw [h hy hy' heq]

theorem Distinct.holds_modify [DecidableEq ι] (h : Distinct address b) (ha : Holds b a) :
    Holds (HashTable.modify (fun x => address x = address a) f b) x ↔
      x = f a ∨ Holds b x ∧ x ≠ a := by
  rw [HashTable.holds_modify]
  constructor
  · rintro ⟨y, hy, rfl⟩
    by_cases heq : address y = address a
    · rw [if_pos (decide_eq_true heq), h hy ha heq]
      exact .inl rfl
    · rw [if_neg (by simpa using heq)]
      exact .inr ⟨hy, fun hya => heq (by rw [hya])⟩
  · rintro (rfl | ⟨hx, hne⟩)
    · exact ⟨a, ha, by rw [if_pos (decide_eq_true rfl)]⟩
    · refine ⟨x, hx, ?_⟩
      rw [if_neg]
      intro heq
      exact hne (h hx ha (of_decide_eq_true heq))

theorem Distinct.holds_remove [DecidableEq ι] {κ : Type} {hash : κ → Nat} {key : α → κ}
    (h : Distinct address b) (hwf : WellFormed hash key b) (ha : Holds b a)
    (hi : i = hash (key a)) :
    Holds (HashTable.remove i (fun x => address x = address a) b) x ↔ Holds b x ∧ x ≠ a := by
  have hbucket := hwf.mem_bucket ha
  rw [← hi] at hbucket
  exact hwf.holds_remove hbucket (decide_eq_true rfl) fun y hy heq =>
    h ⟨_, hy⟩ ha (of_decide_eq_true heq)

end Distinct

end GbStream.Support.HashTable
