import Mathlib.Data.List.AList
import Mathlib.Data.List.Induction
import Mathlib.Algebra.Order.Group.Multiset
import Mathlib.Tactic.Abel

/-!
# Requests and their responses

Requests that wait under a key until a response settles them. The table holds
one entry a key, so a request opened under a key that is still waited for takes
the place of the one there. Beside the table a ledger keeps what was opened,
settled and displaced, which is what an observer can count.

- `Ledger.balanced_run` — whatever is done, every request opened is settled,
  waited for or displaced, and it is so once.
- `Ledger.displaced_run` — nothing is displaced while no key is used twice.
-/

namespace Correlation

variable {κ α : Type*}

/-- What is done with a table: a request is opened under a key, or a key is settled. -/
inductive Move (κ α : Type*) where
  | opens (key : κ) (request : α)
  | settles (key : κ)

def Move.openedKey : Move κ α → Option κ
  | .opens key _ => some key
  | .settles _ => none

/-- The keys that requests were opened under, in order. -/
def openedKeys (moves : List (Move κ α)) : List κ := moves.filterMap Move.openedKey

structure Ledger (κ α : Type*) where
  waiting : AList fun _ : κ => α := ∅
  opened : List α := []
  settled : List α := []
  displaced : List α := []

/-- The requests of a table, without their keys. -/
def requestsOf (table : AList fun _ : κ => α) : Multiset α := ↑(table.entries.map Sigma.snd)

variable [DecidableEq κ]

/-! ## One move -/

namespace Ledger

/-- A key nobody waits for settles nothing. -/
def step (l : Ledger κ α) : Move κ α → Ledger κ α
  | .opens key request =>
      { l with
        waiting := l.waiting.insert key request
        opened := l.opened ++ [request]
        displaced := l.displaced ++ (l.waiting.lookup key).toList }
  | .settles key =>
      match l.waiting.lookup key with
      | none => l
      | some request =>
          { l with waiting := l.waiting.erase key, settled := l.settled ++ [request] }

def run (moves : List (Move κ α)) : Ledger κ α := moves.foldl step {}

theorem run_concat (moves : List (Move κ α)) (move : Move κ α) :
    run (moves ++ [move]) = (run moves).step move := by
  unfold run
  rw [List.foldl_append]
  rfl

theorem step_settles_of_notMem {l : Ledger κ α} {key : κ} (h : key ∉ l.waiting) :
    l.step (.settles key) = l := by
  rw [step, AList.lookup_eq_none.mpr h]

theorem step_settles_of_lookup {l : Ledger κ α} {key : κ} {request : α}
    (h : l.waiting.lookup key = some request) : l.step (.settles key) =
      { l with waiting := l.waiting.erase key, settled := l.settled ++ [request] } := by
  rw [step, h]

theorem step_settles_cases (l : Ledger κ α) (key : κ) :
    l.step (.settles key) = l ∨ ∃ request, l.waiting.lookup key = some request ∧
      l.step (.settles key) =
        { l with waiting := l.waiting.erase key, settled := l.settled ++ [request] } := by
  cases h : l.waiting.lookup key with
  | none => exact Or.inl (step_settles_of_notMem (AList.lookup_eq_none.mp h))
  | some request => exact Or.inr ⟨request, rfl, step_settles_of_lookup h⟩

end Ledger

/-! ## The requests of a table -/

theorem requestsOf_insert (table : AList fun _ : κ => α) (key : κ) (request : α) :
    requestsOf (table.insert key request) = request ::ₘ requestsOf (table.erase key) := by
  unfold requestsOf
  rw [AList.entries_insert]
  rfl

theorem requestsOf_erase_of_notMem {table : AList fun _ : κ => α} {key : κ} (h : key ∉ table) :
    requestsOf (table.erase key) = requestsOf table := by
  have herase : (table.erase key).entries = table.entries := List.kerase_of_notMem_keys h
  unfold requestsOf
  rw [herase]

/-- Erasing a key takes out the request waiting under it, if there is one. -/
theorem requestsOf_erase (table : AList fun _ : κ => α) (key : κ) :
    requestsOf table = requestsOf (table.erase key) + ↑(table.lookup key).toList := by
  by_cases h : key ∈ table
  · obtain ⟨request, front, back, -, hentries, herase⟩ := List.exists_of_kerase h
    have hlookup : table.lookup key = some request := by
      apply AList.mem_lookup_iff.mpr
      rw [hentries]
      simp
    have herase' : (table.erase key).entries = front ++ back := herase
    unfold requestsOf
    rw [herase', hentries, hlookup]
    rw [List.map_append, List.map_cons, List.map_append, Option.toList_some, Multiset.coe_add,
      Multiset.coe_eq_coe]
    exact List.perm_middle.trans (List.perm_append_singleton _ _).symm
  · rw [requestsOf_erase_of_notMem h, AList.lookup_eq_none.mpr h]
    simp

/-! ## Nothing is lost -/

namespace Ledger

/-- Every request opened is in one of the three places, as often as it was opened. -/
def Balanced (l : Ledger κ α) : Prop :=
  (l.opened : Multiset α) = l.settled + requestsOf l.waiting + l.displaced

theorem Balanced.step {l : Ledger κ α} (h : l.Balanced) (move : Move κ α) :
    (l.step move).Balanced := by
  unfold Balanced at *
  cases move with
  | opens key request =>
      show (↑(l.opened ++ [request]) : Multiset α) =
        l.settled + requestsOf (l.waiting.insert key request) +
          ↑(l.displaced ++ (l.waiting.lookup key).toList)
      rw [← Multiset.coe_add, ← Multiset.coe_add, h, requestsOf_erase l.waiting key,
        requestsOf_insert, Multiset.coe_singleton, ← Multiset.singleton_add]
      abel
  | settles key =>
      rcases step_settles_cases l key with hstep | ⟨request, hlookup, hstep⟩
      · rw [hstep]
        exact h
      · rw [hstep]
        show (↑l.opened : Multiset α) =
          ↑(l.settled ++ [request]) + requestsOf (l.waiting.erase key) + ↑l.displaced
        rw [← Multiset.coe_add, h, requestsOf_erase l.waiting key, hlookup, Option.toList_some]
        abel

/-- **Nothing is lost** on the way from opening to settling, in any order of moves. -/
theorem balanced_run (moves : List (Move κ α)) : (run moves).Balanced := by
  induction moves using List.reverseRecOn with
  | nil => rfl
  | append_singleton moves move ih =>
      rw [run_concat]
      exact ih.step move

/-- A response settles a request that was opened, and each at most once. -/
theorem settled_le_opened (moves : List (Move κ α)) :
    ((run moves).settled : Multiset α) + requestsOf (run moves).waiting ≤ (run moves).opened := by
  rw [balanced_run moves]
  exact Multiset.le_add_right _ _

/-! ## Nothing is displaced -/

theorem mem_openedKeys_of_waiting {moves : List (Move κ α)} {key : κ}
    (h : key ∈ (run moves).waiting) : key ∈ openedKeys moves := by
  induction moves using List.reverseRecOn with
  | nil => exact absurd h (AList.notMem_empty key)
  | append_singleton moves move ih =>
      rw [run_concat] at h
      unfold openedKeys at *
      rw [List.filterMap_append, List.mem_append]
      cases move with
      | opens key' request =>
          rcases (AList.mem_insert _).mp h with rfl | h
          · exact Or.inr (by simp [Move.openedKey])
          · exact Or.inl (ih h)
      | settles key' =>
          left
          rcases step_settles_cases (run moves) key' with hstep | ⟨request, -, hstep⟩
          · rw [hstep] at h
            exact ih h
          · rw [hstep] at h
            exact ih (AList.mem_erase.mp h).2

/-- While no key is opened twice, no request takes the place of another. -/
theorem displaced_run {moves : List (Move κ α)} (h : (openedKeys moves).Nodup) :
    (run moves).displaced = [] := by
  induction moves using List.reverseRecOn with
  | nil => rfl
  | append_singleton moves move ih =>
      have hkeys : openedKeys (moves ++ [move]) = openedKeys moves ++ openedKeys [move] :=
        List.filterMap_append
      rw [hkeys, List.nodup_append] at h
      obtain ⟨hmoves, -, hapart⟩ := h
      rw [run_concat]
      cases move with
      | opens key request =>
          have hfresh : key ∉ (run moves).waiting := by
            intro hwait
            exact hapart key (mem_openedKeys_of_waiting hwait) key
              (by simp [openedKeys, Move.openedKey]) rfl
          show (run moves).displaced ++ ((run moves).waiting.lookup key).toList = []
          rw [ih hmoves, AList.lookup_eq_none.mpr hfresh]
          rfl
      | settles key =>
          rcases step_settles_cases (run moves) key with hstep | ⟨request, -, hstep⟩
          · rw [hstep]
            exact ih hmoves
          · rw [hstep]
            exact ih hmoves

end Ledger

end Correlation
