import Hal0.Core.Handles
import Mathlib.Data.List.Nodup

/-!
# Numbered tickets

Tickets are issued under increasing numbers, held by at most one task each,
and given back.  `Ledger count issued next held` says that a counter shows how
many tickets are out, and that what the tasks hold is among them.
-/

namespace Hal0.Tickets

open Function List
open Hal0.Handles

variable {Task : Type}

/-- The counter, the tickets that are out, and their holders agree. -/
structure Ledger (count : Nat) (issued : List Nat) (next : Nat)
    (held : Task → Option Nat) : Prop where
  counted : count = issued.length
  once : issued.Nodup
  below : ∀ ticket ∈ issued, ticket < next
  inside : ∀ task ticket, held task = some ticket → ticket ∈ issued
  separate : Separate held

namespace Ledger

variable {count next : Nat} {issued : List Nat}
  {held : Task → Option Nat} {task : Task} {ticket : Nat}

theorem empty : Ledger 0 [] next (fun _ : Task => none) where
  counted := rfl
  once := nodup_nil
  below := nofun
  inside := nofun
  separate := nofun

variable [DecidableEq Task]

/-- A holder gives its ticket back. -/
theorem giveBack (ledger : Ledger count issued next held)
    (has : held task = some ticket) :
    Ledger (count - 1) (issued.erase ticket) next
      (update held task none) where
  counted := by
    rw [length_erase_of_mem (ledger.inside task ticket has), ledger.counted]
  once := ledger.once.erase ticket
  below := fun other out => ledger.below other (mem_of_mem_erase out)
  inside := by
    intro other otherTicket otherHas
    have distinct : other ≠ task := by
      rintro rfl
      rw [update_self] at otherHas
      cases otherHas
    rw [update_of_ne distinct] at otherHas
    have apart : otherTicket ≠ ticket := by
      rintro rfl
      exact distinct (ledger.separate other task otherTicket otherHas has)
    exact (mem_erase_of_ne apart).mpr
      (ledger.inside other otherTicket otherHas)
  separate := ledger.separate.unbind

/-- A new ticket is handed out. -/
theorem issue (ledger : Ledger count issued next held) (task : Task) :
    Ledger (count + 1) (next :: issued) (next + 1)
      (update held task (some next)) where
  counted := by rw [ledger.counted, length_cons]
  once := by
    rw [nodup_cons]
    exact ⟨fun out => Nat.lt_irrefl _ (ledger.below next out), ledger.once⟩
  below := by
    intro other out
    rcases mem_cons.mp out with rfl | earlier
    · exact Nat.lt_succ_self _
    · exact Nat.lt_succ_of_lt (ledger.below other earlier)
  inside := by
    intro other otherTicket otherHas
    rw [update_apply] at otherHas
    split_ifs at otherHas
    · cases otherHas
      exact mem_cons_self
    · exact mem_cons_of_mem _
        (ledger.inside other otherTicket otherHas)
  separate := by
    apply ledger.separate.bind
    intro other has
    exact Nat.lt_irrefl _ (ledger.below next (ledger.inside other next has))

end Ledger

end Hal0.Tickets
