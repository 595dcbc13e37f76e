import Mathlib.Data.List.Sort

/-!
A log that only grows at its end, read page by page behind a cursor.
-/

namespace Relational

variable {ρ κ : Type} [LinearOrder κ] {key : ρ → κ} {log more : List ρ} {cursor : κ}

/-- Each entry has a greater key than those before it. -/
def Ascending (key : ρ → κ) (log : List ρ) : Prop := log.Pairwise fun earlier later => key earlier < key later

/-- The entries up to the cursor. -/
def seen (key : ρ → κ) (cursor : κ) (log : List ρ) : List ρ := log.filter fun entry => key entry ≤ cursor

/-- The entries behind the cursor. -/
def unseen (key : ρ → κ) (cursor : κ) (log : List ρ) : List ρ := log.filter fun entry => cursor < key entry

/-- Where the cursor is after a page. -/
def advanced (key : ρ → κ) (cursor : κ) (page : List ρ) : κ := ((page.getLast?).map key).getD cursor

theorem Ascending.filter (ascending : Ascending key log) (kept : ρ → Bool) : Ascending key (log.filter kept) :=
  List.Pairwise.filter kept ascending

theorem Ascending.sorted (ascending : Ascending key log) :
    log.insertionSort (fun a b => key a ≤ key b) = log :=
  (ascending.imp fun below => below.le).insertionSort_eq

theorem seen_append_unseen (ascending : Ascending key log) : seen key cursor log ++ unseen key cursor log = log := by
  induction log with
  | nil => rfl
  | cons entry rest ih =>
      obtain ⟨below, later⟩ := List.pairwise_cons.mp ascending
      by_cases early : key entry ≤ cursor
      · have unread : ¬ cursor < key entry := not_lt.mpr early
        simpa [seen, unseen, early, unread] using ih later
      · have unread : cursor < key entry := not_le.mp early
        have none : seen key cursor rest = [] :=
          List.filter_eq_nil_iff.mpr fun other member => by
            simpa using unread.trans (below other member)
        have all : unseen key cursor rest = rest :=
          List.filter_eq_self.mpr fun other member => by simpa using unread.trans (below other member)
        simp only [seen, unseen] at none all
        simp [seen, unseen, early, unread, none, all]

theorem seen_of_grown (fresh : ∀ entry ∈ more, cursor < key entry) :
    seen key cursor (log ++ more) = seen key cursor log := by
  have none : seen key cursor more = [] := List.filter_eq_nil_iff.mpr fun entry member => by
    simpa using fresh entry member
  simp only [seen] at none
  simp [seen, none]

theorem seen_split {read unread : List ρ} (upTo : ∀ entry ∈ read, key entry ≤ cursor)
    (behind : ∀ entry ∈ unread, cursor < key entry) : seen key cursor (read ++ unread) = read := by
  rw [seen_of_grown behind]
  exact List.filter_eq_self.mpr fun entry member => by simpa using upTo entry member

/-- A page of the entries behind the cursor moves the cursor over exactly that page. -/
theorem seen_page (ascending : Ascending key log) (limit : Nat) :
    seen key (advanced key cursor ((unseen key cursor log).take limit)) log =
      seen key cursor log ++ (unseen key cursor log).take limit := by
  have whole : seen key cursor log ++ unseen key cursor log = log := seen_append_unseen ascending
  have upTo : ∀ entry ∈ seen key cursor log, key entry ≤ cursor := fun entry member => by
    simpa using (List.mem_filter.mp member).2
  have behind : ∀ entry ∈ unseen key cursor log, cursor < key entry := fun entry member => by
    simpa using (List.mem_filter.mp member).2
  rcases List.eq_nil_or_concat ((unseen key cursor log).take limit) with empty | ⟨front, last, page⟩
  · rw [empty, List.append_nil]
    rfl
  · have moved : advanced key cursor (front ++ [last]) = key last := by simp [advanced]
    have split : log = (seen key cursor log ++ (front ++ [last])) ++ (unseen key cursor log).drop limit := by
      rw [List.append_assoc, ← List.concat_eq_append, ← page, List.take_append_drop, whole]
    have ordered := split ▸ ascending
    obtain ⟨before, _, after⟩ := List.pairwise_append.mp ordered
    obtain ⟨_, inside, _⟩ := List.pairwise_append.mp before
    have isLast : ∀ entry ∈ front ++ [last], key entry ≤ key last := by
      intro entry member
      rcases List.mem_append.mp member with early | same
      · exact ((List.pairwise_append.mp inside).2.2 entry early last (by simp)).le
      · rw [List.mem_singleton.mp same]
    have onPage : last ∈ (unseen key cursor log).take limit := by simp [page]
    have beyond : cursor < key last := behind last (List.mem_of_mem_take onPage)
    rw [page, List.concat_eq_append, moved]
    conv_lhs => rw [split]
    refine seen_split ?_ fun entry member => after last (by simp) entry member
    intro entry member
    rcases List.mem_append.mp member with early | here
    · exact (upTo entry early).trans beyond.le
    · exact isLast entry here

end Relational
