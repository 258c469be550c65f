import Mathlib.Data.List.Induction
import Mathlib.Logic.Function.Basic

namespace PageStore

/-!
# Stores of pages

A store has pages of `n` cells, numbered by a type `ι`.  An operation is addressed to one
page and replaces all of it, so a page holds what the last operation addressed to it left
there, whatever the others did in between.

* `PageOp` — a page is erased, or written from its start with blank cells behind;
* `run` — a store after a list of operations;
* `run_eq_last` — the last operation addressed to a page decides what it holds.
-/

/-- An operation on a store of pages. -/
inductive PageOp (ι α : Type*) where
  | erase (page : ι)
  | write (page : ι) (data : List α)

variable {ι α : Type*} {n : ℕ}

/-- The page an operation is addressed to. -/
def PageOp.page : PageOp ι α → ι
  | .erase p   => p
  | .write p _ => p

@[simp] theorem PageOp.page_erase (p : ι) : (PageOp.erase p : PageOp ι α).page = p := rfl
@[simp] theorem PageOp.page_write (p : ι) (data : List α) : (PageOp.write p data).page = p := rfl

/-- What the page holds after the operation. -/
def PageOp.content (blank : α) : PageOp ι α → Fin n → α
  | .erase _      => fun _ => blank
  | .write _ data => fun i => data.getD i blank

variable [DecidableEq ι]

/-- A store after one operation. -/
def apply (blank : α) (s : ι → Fin n → α) (op : PageOp ι α) : ι → Fin n → α :=
  Function.update s op.page (op.content blank)

/-- A store after the operations `ops`. -/
def run (blank : α) (s : ι → Fin n → α) (ops : List (PageOp ι α)) : ι → Fin n → α :=
  ops.foldl (apply blank) s

@[simp] theorem run_nil (blank : α) (s : ι → Fin n → α) : run blank s [] = s := rfl

theorem run_append (blank : α) (s : ι → Fin n → α) (ops ops' : List (PageOp ι α)) :
    run blank s (ops ++ ops') = run blank (run blank s ops) ops' := List.foldl_append ..

/-- The page an operation is addressed to holds its content. -/
theorem apply_page (blank : α) (s : ι → Fin n → α) (op : PageOp ι α) :
    apply blank s op op.page = op.content blank := Function.update_self ..

/-- The other pages stay as they are. -/
theorem apply_of_ne (blank : α) (s : ι → Fin n → α) {op : PageOp ι α} {p : ι} (h : p ≠ op.page) :
    apply blank s op p = s p := Function.update_of_ne h ..

/-- The last of the operations that is addressed to the page. -/
def lastOp (p : ι) (ops : List (PageOp ι α)) : Option (PageOp ι α) :=
  (ops.filter fun op => op.page = p).getLast?

/-- The last one, of a list from its head. -/
theorem lastOp_cons (p : ι) (op : PageOp ι α) (ops : List (PageOp ι α)) :
    lastOp p (op :: ops) = (lastOp p ops).or (if op.page = p then some op else none) := by
  unfold lastOp
  by_cases hp : op.page = p
  · rw [List.filter_cons_of_pos (by simpa using hp), List.getLast?_cons, if_pos hp]
    cases (ops.filter fun op => op.page = p).getLast? <;> rfl
  · rw [List.filter_cons_of_neg (by simpa using hp), if_neg hp, Option.or_none]

/-- **The last operation decides.**  A page holds the content of the last operation addressed
    to it, and what it held before if there is none. -/
theorem run_eq_last (blank : α) (s : ι → Fin n → α) (ops : List (PageOp ι α)) (p : ι) :
    run blank s ops p = (lastOp p ops).elim (s p) (PageOp.content blank) := by
  induction ops using List.reverseRecOn with
  | nil => rfl
  | append_singleton ops op ih =>
    rw [run_append]
    show apply blank (run blank s ops) op p = _
    by_cases hp : op.page = p
    · have hlast : lastOp p (ops ++ [op]) = some op := by simp [lastOp, hp]
      rw [hlast, ← hp, apply_page]
      rfl
    · have hlast : lastOp p (ops ++ [op]) = lastOp p ops := by simp [lastOp, hp]
      rw [hlast, apply_of_ne _ _ (Ne.symm hp), ih]

end PageStore
