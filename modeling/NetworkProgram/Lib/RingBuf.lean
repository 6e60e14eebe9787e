import Mathlib.Data.List.Basic
import Mathlib.Logic.Function.Basic
import Mathlib.Tactic.TypeStar

/-!
# Ring buffers

`N` cells, the index `get` of the oldest item and the index `put` of the next free cell.  Equal
indices mean that the ring is empty, so it has room for `N - 1` items:

* `RingBuf.items`       the items, oldest first;
* `RingBuf.items_push`  a push with room left adds an item at the end;
* `RingBuf.items_pop`   a pop takes the first one;
* `RingBuf.push_meets`  the indices meet after a push exactly when there was no room left.
-/

structure RingBuf (α : Type*) (N : Nat) where
  cell : Nat → α
  get : Nat
  put : Nat
  get_lt : get < N
  put_lt : put < N

namespace RingBuf

/-- the index after `i` -/
def next (N i : Nat) : Nat := if i + 1 = N then 0 else i + 1

/-- the index of the `k`-th item from `get` on -/
def index (N get k : Nat) : Nat := if get + k < N then get + k else get + k - N

theorem next_lt {N i : Nat} (h : i < N) : next N i < N := by
  unfold next
  split <;> omega

theorem index_next {N get k : Nat} (hk : k + 1 < N) :
    index N (next N get) k = index N get (k + 1) := by
  unfold index next
  split <;> split <;> split <;> omega

variable {α : Type*} {N : Nat}

/-- the number of items -/
def size (r : RingBuf α N) : Nat := if r.get ≤ r.put then r.put - r.get else r.put + N - r.get

def items (r : RingBuf α N) : List α := (List.range r.size).map (fun k => r.cell (index N r.get k))

def push (r : RingBuf α N) (x : α) : RingBuf α N where
  cell := Function.update r.cell r.put x
  get := r.get
  put := next N r.put
  get_lt := r.get_lt
  put_lt := next_lt r.put_lt

def pop (r : RingBuf α N) : RingBuf α N where
  cell := r.cell
  get := next N r.get
  put := r.put
  get_lt := next_lt r.get_lt
  put_lt := r.put_lt

variable (r : RingBuf α N) (x : α)

theorem size_lt : r.size < N := by
  have hg := r.get_lt
  have hp := r.put_lt
  unfold size
  split <;> omega

@[simp] theorem items_length : r.items.length = r.size := by simp [items]

theorem getElem_items {k : Nat} (h : k < r.items.length) :
    r.items[k] = r.cell (index N r.get k) := by simp [items]

theorem empty_iff : r.get = r.put ↔ r.items = [] := by
  have hg := r.get_lt
  have hp := r.put_lt
  rw [← List.length_eq_zero_iff, items_length]
  unfold size
  split <;> omega

/-- the free cell comes after the last item -/
theorem put_eq : r.put = index N r.get r.size := by
  have hg := r.get_lt
  have hp := r.put_lt
  unfold index size
  split <;> split <;> omega

/-- the free cell holds no item -/
theorem index_ne_put {k : Nat} (h : k < r.size) : index N r.get k ≠ r.put := by
  have hs := r.size_lt
  have hg := r.get_lt
  rw [r.put_eq]
  unfold index
  split <;> split <;> omega

theorem size_push (h : r.size + 1 < N) : (r.push x).size = r.size + 1 := by
  have hg := r.get_lt
  have hp := r.put_lt
  revert h
  show r.size + 1 < N → (if r.get ≤ next N r.put then next N r.put - r.get
    else next N r.put + N - r.get) = r.size + 1
  unfold size next
  split <;> split <;> split <;> omega

/-- **A push adds an item at the end.** -/
theorem items_push (h : r.size + 1 < N) : (r.push x).items = r.items ++ [x] := by
  unfold items
  rw [size_push r x h, List.range_succ, List.map_append, List.map_singleton]
  congr 1
  · apply List.map_congr_left
    intro k hk
    have hne := r.index_ne_put (List.mem_range.mp hk)
    exact Function.update_of_ne hne _ _
  · show [Function.update r.cell r.put x (index N r.get r.size)] = [x]
    rw [← r.put_eq, Function.update_self]

/-- **The indices meet after a push into a ring without room.** -/
theorem push_meets : (r.push x).put = (r.push x).get ↔ r.size + 1 = N := by
  have hg := r.get_lt
  have hp := r.put_lt
  show next N r.put = r.get ↔ _
  unfold size next
  split <;> split <;> omega

/-- **A pop takes the oldest item.** -/
theorem items_pop (h : r.get ≠ r.put) : r.items = r.cell r.get :: r.pop.items := by
  have hg := r.get_lt
  have hp := r.put_lt
  have hsize : r.size = r.pop.size + 1 := by
    show r.size = (if next N r.get ≤ r.put then r.put - next N r.get
      else r.put + N - next N r.get) + 1
    unfold size next
    split <;> split <;> split <;> omega
  have hlt := r.size_lt
  have h0 : index N r.get 0 = r.get := if_pos hg
  unfold items
  rw [hsize, List.range_succ_eq_map, List.map_cons, List.map_map, h0]
  congr 1
  apply List.map_congr_left
  intro k hk
  have hk' := List.mem_range.mp hk
  show r.cell (index N r.get (k + 1)) = r.cell (index N (next N r.get) k)
  rw [index_next (by omega)]

end RingBuf
