import GbStream.Support.Binary32
import GbStream.Support.Chain

/-!
# The lists of simclist

`list_t` and its entries, which lie in memory between two sentinels.  A pointer to the entry in
the middle and a few spare entries are kept beside them.  Every list of the program is of this
kind; it sets no comparator and has no data copied.
-/

namespace GbStream.Simclist

/-! ## Memory -/

/-- The memory of `list_entry_s`, field by field: what `malloc` has given out and `free` has not
taken back is live.  Addresses from `top` on have never been given out.  A block of another kind
has an address only. -/
structure Heap (α : Type) where
  live : Nat → Bool
  data : Nat → Option α
  next : Nat → Option Nat
  prev : Nat → Option Nat
  top : Nat

namespace Heap

variable {α : Type} (h : Heap α)

/-- The entry behind a pointer; `none` for the null pointer and what has been freed. -/
def deref : Option Nat → Option Nat
  | none => none
  | some a => if h.live a then some a else none

def getData (p : Option Nat) : Option (Option α) := (h.deref p).map h.data
def getNext (p : Option Nat) : Option (Option Nat) := (h.deref p).map h.next
def getPrev (p : Option Nat) : Option (Option Nat) := (h.deref p).map h.prev

def setData (p : Option Nat) (data : Option α) : Option (Heap α) :=
  (h.deref p).map fun a => { h with data := Function.update h.data a data }

def setNext (p q : Option Nat) : Option (Heap α) :=
  (h.deref p).map fun a => { h with next := Function.update h.next a q }

def setPrev (p q : Option Nat) : Option (Heap α) :=
  (h.deref p).map fun a => { h with prev := Function.update h.prev a q }

def malloc : Nat × Heap α :=
  (h.top, { h with live := Function.update h.live h.top true, top := h.top + 1 })

def free (p : Option Nat) : Option (Heap α) :=
  (h.deref p).map fun a => { h with live := Function.update h.live a false }

end Heap

/-! ## The list -/

def simclistMaxSpareElems : Nat := 5

/-- `list_t`; `spareels` are the first `spareelsnum` slots of the array at `spareelsArray`. -/
structure ListT where
  headSentinel : Nat
  tailSentinel : Nat
  spareelsArray : Nat
  mid : Option Nat := none
  numels : UInt32 := 0
  spareels : List Nat := []
  iterActive : Bool := false
  iterPos : UInt32 := 0
  iterCurentry : Option Nat := none
  deriving DecidableEq, Repr

variable {α : Type}

def listInit (h : Heap α) : Heap α × ListT :=
  let (headSentinel, h) := h.malloc
  let (tailSentinel, h) := h.malloc
  let (spareelsArray, h) := h.malloc
  ({ h with
      next :=
        Function.update (Function.update h.next headSentinel (some tailSentinel)) tailSentinel none
      prev :=
        Function.update (Function.update h.prev tailSentinel (some headSentinel)) headSentinel none
      data := Function.update (Function.update h.data headSentinel none) tailSentinel none },
    { headSentinel, tailSentinel, spareelsArray })

def listSize (l : ListT) : UInt32 := l.numels

def listEmpty (l : ListT) : Bool := l.numels = 0

/-! ## Finding a position -/

/-- `count` rounds of `ptr = ptr->next`. -/
def walkNext (h : Heap α) : Nat → Option Nat → Option (Option Nat)
  | 0, ptr => some ptr
  | count + 1, ptr => h.getNext ptr >>= walkNext h count

/-- `count` rounds of `ptr = ptr->prev`. -/
def walkPrev (h : Heap α) : Nat → Option Nat → Option (Option Nat)
  | 0, ptr => some ptr
  | count + 1, ptr => h.getPrev ptr >>= walkPrev h count

/-- How often a loop from `i` up to `j` runs. -/
def rounds (i j : Int32) : Nat := (j.toInt - i.toInt).toNat

/-- The entry at a position, from the end or the middle that the quotient `x` says is near. -/
def listFindpos (h : Heap α) (l : ListT) (posstart : Int32) : Option (Option Nat) :=
  if posstart < -1 ∨ posstart > l.numels.toInt32 then some none
  else
    let x := Float32.Model.ofInt32 (posstart + 1) / Float32.Model.ofUInt32 l.numels
    let middle := ((l.numels - 1) / 2).toInt32
    if x ≤ Float32.Model.ofScientific 25 (-2) then
      walkNext h (rounds (-1) posstart) (some l.headSentinel)
    else if x < Support.Binary32.half then walkPrev h (rounds posstart middle) l.mid
    else if x ≤ Float32.Model.ofScientific 75 (-2) then walkNext h (rounds middle posstart) l.mid
    else walkPrev h (rounds posstart l.numels.toInt32) (some l.tailSentinel)

def listGetAt (h : Heap α) (l : ListT) (pos : UInt32) : Option (Option α) := do
  match ← listFindpos h l pos.toInt32 with
  | none => some none
  | some tmp => h.getData (some tmp)

/-! ## Putting in -/

/-- The entry for a new element: a spare one, or one from `malloc`, which may fail. -/
def takeEntry (mallocFails : Bool) (h : Heap α) (l : ListT) : Option (Nat × Heap α × ListT) :=
  match l.spareels.getLast? with
  | some lent => some (lent, h, { l with spareels := l.spareels.dropLast })
  | none => if mallocFails then none else some (h.malloc.1, h.malloc.2, l)

/-- The middle when a new entry has been linked at `pos` and counted. -/
def insertedMid (h : Heap α) (l : ListT) (lent : Nat) (pos : UInt32) : Option (Option Nat) :=
  if l.numels = 1 then some (some lent)
  else if l.numels % 2 ≠ 0 then
    if pos ≥ (l.numels - 1) / 2 then h.getNext l.mid else some l.mid
  else if pos ≤ (l.numels - 1) / 2 then h.getPrev l.mid
  else some l.mid

def listInsertAt (mallocFails : Bool) (h : Heap α) (l : ListT) (data : Option α) (pos : UInt32) :
    Option (Heap α × ListT × Int32) :=
  if l.iterActive ∨ pos > l.numels then some (h, l, -1)
  else
    match takeEntry mallocFails h l with
    | none => some (h, l, -1)
    | some (lent, h, l) => do
        let h ← h.setData (some lent) data
        let prec ← listFindpos h l (pos - 1).toInt32
        let succ ← h.getNext prec
        let h ← h.setNext prec (some lent)
        let h ← h.setPrev (some lent) prec
        let h ← h.setNext (some lent) succ
        let h ← h.setPrev succ (some lent)
        let l := { l with numels := l.numels + 1 }
        let mid ← insertedMid h l lent pos
        some (h, { l with mid }, 1)

def listAppend (mallocFails : Bool) (h : Heap α) (l : ListT) (data : Option α) :
    Option (Heap α × ListT × Int32) :=
  listInsertAt mallocFails h l data l.numels

def listPrepend (mallocFails : Bool) (h : Heap α) (l : ListT) (data : Option α) :
    Option (Heap α × ListT × Int32) :=
  listInsertAt mallocFails h l data 0

/-! ## Taking out -/

/-- The middle when the entry at `pos` is about to be unlinked. -/
def droppedMid (h : Heap α) (l : ListT) (pos : UInt32) : Option (Option Nat) :=
  if l.numels % 2 ≠ 0 then
    if l.numels = 1 then some none
    else if pos ≥ l.numels / 2 then h.getPrev l.mid
    else some l.mid
  else if pos < l.numels / 2 then h.getNext l.mid
  else some l.mid

/-- An entry that is not linked any more is kept as a spare one, or freed. -/
def putEntry (h : Heap α) (l : ListT) (tmp : Option Nat) : Option (Heap α × ListT) :=
  match tmp with
  | none => none
  | some a =>
      if l.spareels.length < simclistMaxSpareElems then
        some (h, { l with spareels := l.spareels ++ [a] })
      else (h.free tmp).map fun h => (h, l)

/-- `list_drop_elem`, and `list_drop_elem1`, which differs from it for copied data only. -/
def listDropElem (h : Heap α) (l : ListT) (tmp : Option Nat) (pos : UInt32) :
    Option (Heap α × ListT) :=
  if tmp = none then some (h, l)
  else do
    let mid ← droppedMid h l pos
    let l := { l with mid }
    let h ← h.setNext (← h.getPrev tmp) (← h.getNext tmp)
    let h ← h.setPrev (← h.getNext tmp) (← h.getPrev tmp)
    putEntry h l tmp

def listExtractAt (h : Heap α) (l : ListT) (pos : UInt32) :
    Option (Heap α × ListT × Option α) :=
  if l.iterActive ∨ pos ≥ l.numels then some (h, l, none)
  else do
    let tmp ← listFindpos h l pos.toInt32
    let data ← h.getData tmp
    let h ← h.setData tmp none
    let (h, l) ← listDropElem h l tmp pos
    some (h, { l with numels := l.numels - 1 }, data)

/-- `list_delete_at`, and `list_remove_at`. -/
def listDeleteAt (h : Heap α) (l : ListT) (pos : UInt32) : Option (Heap α × ListT × Int32) :=
  if l.iterActive ∨ pos ≥ l.numels then some (h, l, -1)
  else do
    let delendo ← listFindpos h l pos.toInt32
    let (h, l) ← listDropElem h l delendo pos
    some (h, { l with numels := l.numels - 1 }, 0)

/-! ## Searching

A walk over all entries ends after `top` of them, if it ends. -/

/-- The loop of `list_locate`: references are compared. -/
def locateFrom [DecidableEq α] (h : Heap α) (l : ListT) (data : Option α) :
    Nat → Option Nat → Int32 → Option Int32
  | 0, _, _ => none
  | fuel + 1, el, pos =>
      if el = some l.tailSentinel then some (-1)
      else do
        if (← h.getData el) = data then some pos
        else locateFrom h l data fuel (← h.getNext el) (pos + 1)

def listLocate [DecidableEq α] (h : Heap α) (l : ListT) (data : Option α) : Option Int32 := do
  locateFrom h l data (h.top + 1) (← h.getNext (some l.headSentinel)) 0

/-- The loop of `list_seek`; `seeker` is the seeker of the list with the indicator, which may use
an element that has been freed. -/
def seekFrom (h : Heap α) (l : ListT) (seeker : Option α → Option Bool) :
    Nat → Option Nat → Option (Option α)
  | 0, _ => none
  | fuel + 1, iter =>
      if iter = some l.tailSentinel then some none
      else do
        let data ← h.getData iter
        if ← seeker data then some data else seekFrom h l seeker fuel (← h.getNext iter)

def listSeek (h : Heap α) (l : ListT) (seeker : Option α → Option Bool) : Option (Option α) := do
  seekFrom h l seeker (h.top + 1) (← h.getNext (some l.headSentinel))

def listContains [DecidableEq α] (h : Heap α) (l : ListT) (data : Option α) : Option Bool :=
  (listLocate h l data).map fun pos => decide (0 ≤ pos)

/-- `list_delete`, and `list_remove`. -/
def listDelete [DecidableEq α] (h : Heap α) (l : ListT) (data : Option α) :
    Option (Heap α × ListT × Int32) := do
  let pos ← listLocate h l data
  if pos < 0 then some (h, l, -1)
  else do
    let (h, l, r) ← listDeleteAt h l pos.toUInt32
    if r < 0 then some (h, l, -1) else some (h, l, 0)

/-! ## Clearing -/

/-- The first loop of `list_clear`: entries are kept as spare ones as long as there is room. -/
def clearSpare (h : Heap α) (l : ListT) : Nat → Option Nat → Option (ListT × Option Nat)
  | 0, _ => none
  | fuel + 1, s =>
      if l.spareels.length < simclistMaxSpareElems ∧ s ≠ some l.tailSentinel then
        match s with
        | none => none
        | some a => do
            clearSpare h { l with spareels := l.spareels ++ [a] } fuel (← h.getNext s)
      else some (l, s)

def clearFree (l : ListT) : Nat → Heap α → Option Nat → Option (Heap α)
  | 0, _, _ => none
  | fuel + 1, h, s =>
      if s = some l.tailSentinel then some h
      else do
        let s ← h.getNext s
        let h ← h.free (← h.getPrev s)
        clearFree l fuel h s

def listClear (h : Heap α) (l : ListT) : Option (Heap α × ListT × Int32) :=
  if l.iterActive then some (h, l, -1)
  else do
    let (l, s) ← clearSpare h l (h.top + 1) (← h.getNext (some l.headSentinel))
    let h ← clearFree l (h.top + 1) h s
    let h ← h.setNext (some l.headSentinel) (some l.tailSentinel)
    let h ← h.setPrev (some l.tailSentinel) (some l.headSentinel)
    some (h, { l with numels := 0, mid := none }, 0)

/-- The entries and the spare ones go, then the array of these and the sentinels. -/
def listDestroy (h : Heap α) (l : ListT) : Option (Heap α) := do
  let (h, l, _) ← listClear h l
  let h ← l.spareels.foldlM (fun h a => h.free (some a)) h
  let h ← h.free (some l.spareelsArray)
  let h ← h.free (some l.headSentinel)
  h.free (some l.tailSentinel)

/-! ## Iterating -/

def listIteratorStart (h : Heap α) (l : ListT) : Option (ListT × Int32) :=
  if l.iterActive then some (l, 0)
  else do
    let iterCurentry ← h.getNext (some l.headSentinel)
    some ({ l with iterPos := 0, iterActive := true, iterCurentry }, 1)

def listIteratorNext (h : Heap α) (l : ListT) : Option (ListT × Option α) :=
  if ¬ l.iterActive then some (l, none)
  else do
    let toret ← h.getData l.iterCurentry
    let iterCurentry ← h.getNext l.iterCurentry
    some ({ l with iterCurentry, iterPos := l.iterPos + 1 }, toret)

def listIteratorHasnext (l : ListT) : Bool := l.iterActive && l.iterPos < l.numels

def listIteratorStop (l : ListT) : ListT × Int32 :=
  if ¬ l.iterActive then (l, 0) else ({ l with iterPos := 0, iterActive := false }, 1)

/-! ## The test of the representation -/

/-- The first loop of `list_repOk`, up to the middle. -/
def repOkMid (h : Heap α) (l : ListT) : Nat → Int32 → Option Nat → Option (Int32 × Option Nat)
  | 0, _, _ => none
  | fuel + 1, i, s =>
      if i < (l.numels - 1).toInt32 / 2 then do
        let next ← h.getNext s
        if next = none then some (i, s)
        else if (← h.getPrev next) ≠ s then some (i, s)
        else repOkMid h l fuel (i + 1) next
      else some (i, s)

def repOkEnd (h : Heap α) : Nat → Int32 → Option Nat → Option (Int32 × Option Nat)
  | 0, _, _ => none
  | fuel + 1, i, s => do
      let next ← h.getNext s
      if next = none then some (i, s)
      else if (← h.getPrev next) ≠ s then some (i, s)
      else repOkEnd h fuel (i + 1) next

def listRepOk (h : Heap α) (l : ListT) : Option Bool := do
  let headPrev ← h.getPrev (some l.headSentinel)
  let tailNext ← h.getNext (some l.tailSentinel)
  let headNext ← h.getNext (some l.headSentinel)
  let tailPrev ← h.getPrev (some l.tailSentinel)
  if ¬ (l.headSentinel ≠ l.tailSentinel ∧ headPrev = none ∧ tailNext = none ∧
      (l.numels > 0 ∨ l.mid = none ∧ headNext = some l.tailSentinel ∧
        tailPrev = some l.headSentinel) ∧
      l.spareels.length ≤ simclistMaxSpareElems) then
    some false
  else if l.numels ≥ 1 then do
    let (i, s) ← repOkMid h l (h.top + 2) (-1) (some l.headSentinel)
    if ¬ (i = (l.numels - 1).toInt32 / 2 ∧ l.mid = s) then some false
    else do
      let (i, s) ← repOkEnd h (h.top + 2) i s
      some (decide (i = l.numels.toInt32 ∧ s = some l.tailSentinel))
  else some true

end GbStream.Simclist
