import Mathlib.Data.List.Basic
import Mathlib.Data.Int.Order.Basic
import Offside.Indentation.Levels

/-!
# Increasing levels

The open blocks of a text have increasing columns.  Opening a block deeper than the innermost one
and closing the innermost one keep that.
-/

namespace Offside.Levels

/-- Each block is deeper than the one around it, and all are deeper than the base. -/
def Increasing (levels : Levels) : Prop := levels.toList.Pairwise (· < ·)

theorem increasing_iff {levels : Levels} :
    levels.Increasing ↔ (∀ level ∈ levels.opened, base < level) ∧
      levels.opened.Pairwise (· > ·) := by
  simp [Increasing, toList, List.pairwise_reverse]

theorem increasing_initial : initial.Increasing := List.pairwise_singleton ..

theorem top_cons (level : Int) (outer : List Int) : top ⟨level :: outer⟩ = level := rfl

theorem toList_append (inner outer : List Int) :
    toList ⟨inner ++ outer⟩ = toList ⟨outer⟩ ++ inner.reverse := by
  simp [toList]

theorem toList_cons (level : Int) (outer : List Int) :
    toList ⟨level :: outer⟩ = toList ⟨outer⟩ ++ [level] := by
  simp [toList]

theorem Increasing.base_le_top {levels : Levels} (h : levels.Increasing) : base ≤ levels.top := by
  cases hopened : levels.opened with
  | nil => simp [top, hopened]
  | cons level outer =>
      have hlt := (increasing_iff.mp h).1 level (by simp [hopened])
      simp [top, hopened, Int.le_of_lt hlt]

theorem Increasing.open {levels : Levels} (h : levels.Increasing) {level : Int}
    (deeper : levels.top < level) : Increasing ⟨level :: levels.opened⟩ := by
  rw [increasing_iff] at h ⊢
  have hbase := base_le_top (increasing_iff.mpr h)
  refine ⟨List.forall_mem_cons.mpr ⟨Int.lt_of_le_of_lt hbase deeper, h.1⟩,
    List.pairwise_cons.mpr ⟨?_, h.2⟩⟩
  intro other hother
  cases hopened : levels.opened with
  | nil => simp [hopened] at hother
  | cons innermost outer =>
      have htop : levels.top = innermost := by simp [top, hopened]
      have hordered := h.2
      rw [hopened] at hother hordered
      rcases List.mem_cons.mp hother with rfl | houter
      · exact htop ▸ deeper
      · have hlt := (List.pairwise_cons.mp hordered).1 other houter
        omega

theorem Increasing.close {levels : Levels} (h : levels.Increasing) {level : Int}
    {outer : List Int} (opened : levels.opened = level :: outer) : Increasing ⟨outer⟩ := by
  rw [increasing_iff, opened] at h
  rw [increasing_iff]
  exact ⟨fun other hother => h.1 other (List.mem_cons_of_mem _ hother),
    (List.pairwise_cons.mp h.2).2⟩

/-! ## The levels above a column -/

theorem getLast?_toList (levels : Levels) : levels.toList.getLast? = some levels.top := by
  unfold toList top
  cases levels.opened with
  | nil => rfl
  | cons level outer => simp [List.getLast?_cons]

/-- In an increasing list the numbers above a bound come last. -/
theorem filter_append_filter {list : List Int} (h : list.Pairwise (· < ·)) (bound : Int) :
    list.filter (· ≤ bound) ++ list.filter (bound < ·) = list := by
  induction list with
  | nil => rfl
  | cons level list ih =>
      obtain ⟨hlevel, hlist⟩ := List.pairwise_cons.mp h
      by_cases hle : level ≤ bound
      · simp [hle, ih hlist]
      · -- All that follow are above the bound as well.
        have habove : ∀ other ∈ level :: list, bound < other := by
          intro other hother
          rcases List.mem_cons.mp hother with rfl | hmem
          · omega
          · have := hlevel other hmem
            omega
        have hnone : (level :: list).filter (· ≤ bound) = [] := by
          refine List.filter_eq_nil_iff.mpr fun other hother => ?_
          have := habove other hother
          simpa using this
        have hall : (level :: list).filter (bound < ·) = level :: list :=
          List.filter_eq_self.mpr fun other hother => by simpa using habove other hother
        rw [hnone, hall, List.nil_append]

/-- A column is that of an open block if it is the greatest of the levels up to it. -/
theorem Increasing.getLast?_eq_iff {levels : Levels} (h : levels.Increasing) (column : Int) :
    (levels.toList.filter (· ≤ column)).getLast? = some column ↔ column ∈ levels.toList := by
  constructor
  · intro hlast
    exact (List.mem_filter.mp (List.mem_of_getLast? hlast)).1
  · intro hmem
    have hlow : column ∈ levels.toList.filter (· ≤ column) := List.mem_filter.mpr ⟨hmem, by simp⟩
    have hle : ∀ level ∈ levels.toList.filter (· ≤ column), level ≤ column := by
      intro level hlevel
      simpa using (List.mem_filter.mp hlevel).2
    have hordered := List.Pairwise.filter (fun level => decide (level ≤ column)) h
    rcases List.eq_nil_or_concat' (levels.toList.filter (· ≤ column)) with hnil | ⟨front, last, heq⟩
    · simp [hnil] at hlow
    · rw [heq] at hlow hle hordered ⊢
      have hlast := hle last (by simp)
      rw [List.getLast?_concat, Option.some_inj]
      rcases List.mem_append.mp hlow with hfront | hsame
      · have hlt := (List.pairwise_append.mp hordered).2.2 column hfront last (by simp)
        omega
      · exact (List.mem_singleton.mp hsame).symm

/-- The blocks above a column are the inner ones, and those around them have the levels up to it. -/
theorem Increasing.exists_outer {levels : Levels} (h : levels.Increasing) {column : Int}
    (hbase : base ≤ column) :
    ∃ outer, levels.opened = (levels.toList.filter (column < ·)).reverse ++ outer ∧
      toList ⟨outer⟩ = levels.toList.filter (· ≤ column) := by
  have hlow : levels.toList.filter (· ≤ column) =
      base :: levels.opened.reverse.filter (· ≤ column) := by
    rw [toList, List.filter_cons_of_pos (by simpa using hbase)]
  refine ⟨(levels.opened.reverse.filter (· ≤ column)).reverse, ?_, ?_⟩
  · have hsplit := filter_append_filter h column
    rw [hlow, List.cons_append] at hsplit
    have hopened := (List.cons.inj hsplit).2
    rw [← List.reverse_append, hopened, List.reverse_reverse]
  · rw [hlow, toList, List.reverse_reverse]

end Offside.Levels
