/-!
# A stable sort

Elements are sorted by a comparison that tells which of two is less, and elements that tie keep
their order. A few elements are sorted by insertion. More of them are cut into runs, that is, parts
that are in order as they stand, and the runs are merged as a balanced tree of merges asks for. What
is in no order is left for a while, in the hope of a longer part, and is sorted by partition around
pivots in the end. Short parts are sorted in two halves, which are merged from both ends at once.

The comparison should be an order up to ties. If it is not, the ends of such a merge may not meet.
The sort breaks off there and has no result; it is the only place where it does.
-/

namespace ItemSql.Sort

variable {α : Type} (less : α → α → Bool)

/-! ## Insertion -/

/-- Puts an element among others that are in descending order, before the first that is not
greater. -/
def insertBehind (a : α) : List α → List α
  | [] => [a]
  | b :: bs => if less a b then b :: insertBehind a bs else a :: b :: bs

/-- Puts elements among others that are in ascending order. Each is moved before those that are
greater, beginning with the nearest, so equal ones keep their order. -/
def insertAll (sorted as : List α) : List α :=
  (as.foldl (fun descending a ↦ insertBehind less a descending) sorted.reverse).reverse

/-- The elements in ascending order. -/
def insertionSort (as : List α) : List α :=
  insertAll less [] as

/-! ## Merging -/

/-- What is taken from two lists, and what is left of them. -/
structure Taking (α : Type) where
  taken : List α
  left : List α
  right : List α

/-- The taking that takes one more element first. -/
def Taking.cons (a : α) (t : Taking α) : Taking α :=
  { t with taken := a :: t.taken }

/-- Takes a number of elements from the fronts of two lists, as long as both have one. It is the
lesser one each time, and of equal ones that of the left list. -/
def takeFronts : Nat → List α → List α → Taking α
  | n + 1, l :: ls, r :: rs =>
    if less r l then (takeFronts n (l :: ls) rs).cons r else (takeFronts n ls (r :: rs)).cons l
  | _, ls, rs => ⟨[], ls, rs⟩

/-- Takes a number of elements from the backs of two lists, the greater one each time, and of equal
ones that of the right list. Seen from behind, this is to take from the fronts. -/
def takeBacks (n : Nat) (ls rs : List α) : Taking α :=
  let behind := takeFronts (fun a b ↦ less b a) n rs.reverse ls.reverse
  ⟨behind.taken.reverse, behind.right.reverse, behind.left.reverse⟩

/-- Merges two lists from their fronts. -/
def mergeUp (ls rs : List α) : List α :=
  let front := takeFronts less (ls.length + rs.length) ls rs
  front.taken ++ (front.left ++ front.right)

/-- Merges two lists from their backs. -/
def mergeDown (ls rs : List α) : List α :=
  let back := takeBacks less (ls.length + rs.length) ls rs
  back.left ++ back.right ++ back.taken

/-- Merges two lists from the end where the shorter one is used up. -/
def merge (ls rs : List α) : List α :=
  if ls.length ≤ rs.length then mergeUp less ls rs else mergeDown less ls rs

/-- The element that halves leave in the middle, if there is one, and the front with it. It comes
from the left list if the back did not take all that the front left of it. -/
def Taking.withMiddle (size : Nat) (front back : Taking α) (ls : List α) : Taking α :=
  if size % 2 = 0 then front
  else if front.left.length + back.left.length > ls.length then
    ⟨front.taken ++ front.left.take 1, front.left.drop 1, front.right⟩
  else ⟨front.taken ++ front.right.take 1, front.left, front.right.drop 1⟩

/-- Puts together what is taken from the fronts and from the backs of two lists. What one end leaves
must be what the other end took, or else there is no result. -/
def Taking.meet (front back : Taking α) (ls rs : List α) : Option (List α) :=
  if front.left.length + back.left.length = ls.length ∧
      front.right.length + back.right.length = rs.length then
    some (front.taken ++ back.taken)
  else none

/-- Merges two lists from both ends at once, half of the elements from each end. -/
def mergeEnds (ls rs : List α) : Option (List α) :=
  let size := ls.length + rs.length
  let back := takeBacks less (size / 2) ls rs
  ((takeFronts less (size / 2) ls rs).withMiddle size back ls).meet back ls rs

/-! ## Short lists -/

/-- Two elements in ascending order. -/
def sortTwo (a b : α) : List α :=
  if less b a then [b, a] else [a, b]

/-- Merges two pairs that are in ascending order: the least and the greatest element, and between
them the other two. -/
def mergePairs (a b c d : α) : List α :=
  if less c a then
    if less d b then c :: sortTwo less a d ++ [b] else c :: sortTwo less a b ++ [d]
  else
    if less d b then a :: sortTwo less c d ++ [b] else a :: sortTwo less b c ++ [d]

/-- Four elements in ascending order. -/
def sortFour (w x y z : α) : List α :=
  let withLast (a b : α) := if less z y then mergePairs less a b z y else mergePairs less a b y z
  if less x w then withLast x w else withLast w x

/-- Sorts four or eight elements by networks of comparisons, and any other number by insertion. -/
def presort : List α → Option (List α)
  | [w, x, y, z] => some (sortFour less w x y z)
  | [s, t, u, v, w, x, y, z] => mergeEnds less (sortFour less s t u v) (sortFour less w x y z)
  | as => some (insertionSort less as)

/-- Sorts the first elements, a number of them, and puts the others among them. -/
def sortHalf (first : Nat) (as : List α) : Option (List α) := do
  return insertAll less (← presort less (as.take first)) (as.drop first)

/-- Sorts the halves of a list, each from a number of first elements, and merges them. -/
def sortHalves (first : Nat) (as : List α) : Option (List α) := do
  let front ← sortHalf less first (as.take (as.length / 2))
  let back ← sortHalf less first (as.drop (as.length / 2))
  mergeEnds less front back

/-- Sorts a short list in two halves. -/
def smallSort (as : List α) : Option (List α) :=
  if as.length < 2 then some as
  else sortHalves less (if 16 ≤ as.length then 8 else if 8 ≤ as.length then 4 else 1) as

/-! ## Runs -/

/-- A part of a list, and whether it is in order. -/
structure Run (α : Type) where
  items : List α
  inOrder : Bool

/-- The longest start of a list in which each element follows the one before it. The first one
follows an element that is given. -/
def chain (follows : α → α → Bool) (a : α) : List α → List α
  | [] => []
  | b :: bs => if follows a b then b :: chain follows b bs else []

/-- The longest start of a list that descends, or else that does not, in ascending order. -/
def frontRun : List α → List α
  | [] => []
  | a :: as =>
    if as.head?.any (less · a) then (a :: chain (fun x y ↦ less y x) a as).reverse
    else a :: chain (fun x y ↦ !less y x) a as

/-- How many elements a run should have to be left as it is. -/
def goodLength (size : Nat) : Nat :=
  if size ≤ 4096 then min (size - size / 2) 64
  else
    let shift := (1 + size.log2) / 2
    ((1 <<< shift) + (size >>> shift)) / 2

/-- The first run of a list: what is in order there if that is long enough, or else a short part
that is sorted, or one that is left to be sorted. -/
def firstRun (eager : Bool) (good : Nat) (as : List α) : Option (Run α) :=
  if good ≤ (frontRun less as).length then some ⟨frontRun less as, true⟩
  else if eager then (smallSort less (as.take 32)).map (⟨·, true⟩)
  else some ⟨as.take good, false⟩

/-- Cuts a list into runs, behind a number of elements that are in a run before. -/
def runs (eager : Bool) (good : Nat) : Nat → List α → Option (List (Run α))
  | _, [] => some []
  | skipped + 1, _ :: as => runs eager good skipped as
  | 0, a :: as => do
    let run ← firstRun less eager good (a :: as)
    let behind ← runs eager good (run.items.length - 1) as
    return run :: behind

/-! ## The tree of merges -/

/-- How deep in the tree of merges two runs meet, which are next to each other in a list of some
size. It is the number of bits that their middles have in common if the size is scaled to 62. -/
def nodeDepth (size start middle stop : Nat) : Nat :=
  let scale := ((1 <<< 62) + size - 1) / size
  let apart := (scale * (start + middle)) ^^^ (scale * (middle + stop))
  if apart = 0 then 64 else 63 - apart.log2

section Tree

variable (sortPart : List α → Option (List α)) (room : Nat)

/-- The elements of a run in ascending order. -/
def Run.sorted (run : Run α) : Option (List α) :=
  if run.inOrder then some run.items else sortPart run.items

/-- Merges two runs. Where neither is in order and there is room, they are left for a later sort. -/
def mergeRuns (left right : Run α) : Option (Run α) :=
  if left.inOrder || right.inOrder || room < left.items.length + right.items.length then do
    let ls ← left.sorted sortPart
    let rs ← right.sorted sortPart
    return ⟨merge less ls rs, true⟩
  else some ⟨left.items ++ right.items, false⟩

/-- Merges a run with those before it that meet the next one in the tree no deeper than some depth.
Each of them stands with the depth at which it meets the run behind it, the last one first. -/
def collapse (depth : Nat) :
    List (Run α × Nat) → Run α → Option (Run α × List (Run α × Nat))
  | [], run => some (run, [])
  | (before, meets) :: waiting, run =>
    if depth ≤ meets then
      (mergeRuns less sortPart room before run).bind (collapse depth waiting)
    else some (run, (before, meets) :: waiting)

/-- Merges a run, which starts at some place of a list, with those that wait before it and those
behind it. -/
def mergeTree (size : Nat) :
    Nat → List (Run α × Nat) → Run α → List (Run α) → Option (Run α)
  | _, waiting, run, [] => (collapse less sortPart room 0 waiting run).map (·.1)
  | start, waiting, run, next :: behind => do
    let middle := start + run.items.length
    let depth := nodeDepth size start middle (middle + next.items.length)
    let (run, waiting) ← collapse less sortPart room depth waiting run
    mergeTree size middle ((run, depth) :: waiting) next behind

/-- Merges all runs of a list of some size. -/
def mergeAll (size : Nat) : List (Run α) → Option (List α)
  | [] => some []
  | run :: behind => (mergeTree less sortPart room size 0 [] run behind).bind (·.sorted sortPart)

/-- Sorts a list by its runs. -/
def sortByRuns (eager : Bool) (as : List α) : Option (List α) :=
  (runs less eager (goodLength as.length) 0 as).bind
    (mergeAll less sortPart room as.length)

end Tree

/-! ## Partition -/

/-- Which of three elements, given by their places, is neither the least nor the greatest. -/
def middle (as : List α) (i j k : Fin as.length) : Fin as.length :=
  let below := less (as.get i) (as.get j)
  if below = less (as.get i) (as.get k) then
    if less (as.get j) (as.get k) = below then j else k
  else i

/-- A pivot for a part of a list. It is in the middle of the pivots of three shorter parts, or the
first element of a part that is too short for three. -/
def pivot (as : List α) (start size : Nat) (h : start + size ≤ as.length) (hsize : 0 < size) :
    Fin as.length :=
  if hlong : 8 ≤ size then
    let part := size / 8
    middle less as
      (pivot as start part (by omega) (by omega))
      (pivot as (start + 4 * part) part (by omega) (by omega))
      (pivot as (start + 7 * part) part (by omega) (by omega))
  else ⟨start, by omega⟩
termination_by size

/-- The elements of one kind, in their order, among them that of a place if it is wanted. -/
def sift (kind : α → Bool) (wanted : Bool) (as : List α) (i : Fin as.length) : List α :=
  (as.take i).filter kind ++ (if wanted then [as.get i] else []) ++ (as.drop (i + 1)).filter kind

/-- Sorts a list by partition around pivots. An element that is not greater than any other may be
known. If it is not less than the pivot, neither is any other, and so it is if the pivot is not
greater than any other. Then those that tie with the pivot need no more sorting. After a number of
partitions, what is left is sorted by its runs. -/
def quicksort : Nat → Option α → List α → Option (List α)
  | 0, _, as =>
    if as.length ≤ 32 then smallSort less as
    else sortByRuns less (smallSort less) as.length true as
  | limit + 1, least?, as =>
    if h : as.length ≤ 32 then smallSort less as
    else
      let i := pivot less as 0 as.length (by omega) (by omega)
      let low := sift (less · (as.get i)) false as i
      if least?.any (fun least ↦ !less least (as.get i)) || low.isEmpty then
        let same := sift (fun a ↦ !less (as.get i) a) true as i
        (quicksort limit none (sift (less (as.get i)) false as i)).map (same ++ ·)
      else do
        let high := sift (fun a ↦ !less a (as.get i)) true as i
        let back ← quicksort limit (some (as.get i)) high
        let front ← quicksort limit least? low
        return front ++ back

/-- Sorts the elements, if the comparison is an order up to ties. If not, they come out in some
arrangement, or the sort breaks off. -/
def sort (as : List α) : Option (List α) :=
  let size := as.length
  if size ≤ 20 then some (insertionSort less as)
  else
    let byPartition part := quicksort less (2 * part.length.log2) none part
    sortByRuns less byPartition (max (size - size / 2) (min size 1000000)) (size ≤ 64) as

end ItemSql.Sort
