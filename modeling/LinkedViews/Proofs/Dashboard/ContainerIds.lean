import LinkedViews.Proofs.Script.Container

/-!
The ids of the containers that a dashboard has on a page. They are put together from texts that are
not escaped, so an id may hold anything; yet within one page no two of them are the same, since the
element keys of the charts differ, and pages with display ids of one length have none in common.
-/

namespace LinkedViews

/-- Texts of one length, in characters or in bytes, begin alike only if they are the same. -/
theorem Text.eq_of_append {one other : String} {rest more : List Char}
    (even : one.length = other.length ∨ one.utf8ByteSize = other.utf8ByteSize)
    (same : one.toList ++ rest = other.toList ++ more) : one = other := by
  have prefixed {one other : String} {middle : List Char} (split : other.toList = one.toList ++ middle)
      (even : one.length = other.length ∨ one.utf8ByteSize = other.utf8ByteSize) : one = other := by
    have joined : other = one ++ String.ofList middle := by
      rw [← String.ofList_toList (s := other), split, String.ofList_append, String.ofList_toList]
    rw [joined, String.length_append, String.utf8ByteSize_append] at even
    have empty : String.ofList middle = "" := by
      obtain length | bytes := even
      · exact String.length_eq_zero_iff.mp (by omega)
      · exact String.utf8ByteSize_eq_zero_iff.mp (by omega)
    rw [joined, empty, String.append_empty]
  obtain ⟨middle, split, _⟩ | ⟨middle, split, _⟩ := List.append_eq_append_iff.mp same
  · exact prefixed split even
  · exact (prefixed split (even.imp Eq.symm Eq.symm)).symm

namespace Dashboard

variable {table second : Table} {index name : IndexName} {charts others : List Chart}
  {dashboard other : Dashboard} {displayId otherId id : String}

/-- The ids of the containers on a page with a display id: that of the summary, and one for each
fragment that has an element key. -/
def containerIds (dashboard : Dashboard) (displayId : String) : List String :=
  ("dc-" ++ displayId ++ "-count") ::
    dashboard.fragments.filterMap fun fragment => fragment.elementId displayId

theorem containerIds_ofCharts (made : ofCharts table index charts = .ok dashboard)
    (displayId : String) : dashboard.containerIds displayId =
      ("dc-" ++ displayId ++ "-count") :: charts.map (Chart.containerId displayId) := by
  obtain ⟨rfl, _⟩ := of_ofCharts made
  have each : ((fun fragment => fragment.elementId displayId) ∘ fun chart =>
      Fragment.ofChart chart index) = some ∘ Chart.containerId displayId := rfl
  rw [containerIds, List.filterMap_map, each, List.filterMap_eq_map]

/-- The display id stands at the same place in all ids of a page. -/
theorem exists_of_mem_containerIds (made : ofCharts table index charts = .ok dashboard)
    (member : id ∈ dashboard.containerIds displayId) :
    ∃ rest, id.toList = "dc-".toList ++ (displayId.toList ++ rest) := by
  rw [containerIds_ofCharts made] at member
  obtain rfl | charted := List.mem_cons.mp member
  · exact ⟨"-count".toList, by simp⟩
  · obtain ⟨chart, _, rfl⟩ := List.mem_map.mp charted
    exact ⟨"-chart-".toList ++ chart.elementKey.toList, by simp [Chart.containerId, Fragment.elementIdOf]⟩

theorem nodup_containerIds (made : ofCharts table index charts = .ok dashboard)
    (displayId : String) : (dashboard.containerIds displayId).Nodup := by
  rw [containerIds_ofCharts made]
  apply List.Nodup.of_map String.toList
  rw [List.map_cons, List.map_map]
  exact nodup_ids (of_ofCharts made).2

theorem length_containerIds (made : ofCharts table index charts = .ok dashboard)
    (displayId : String) : (dashboard.containerIds displayId).length = charts.length + 1 := by
  rw [containerIds_ofCharts made, List.length_cons, List.length_map]

/-- The ids of a page differ, and pages whose display ids differ but have one length share none,
whatever is in the names of columns. -/
theorem containerIds_apart (made : ofCharts table index charts = .ok dashboard)
    (built : ofCharts second name others = .ok other) (displayId otherId : String) :
    ((dashboard.containerIds displayId).length = charts.length + 1 ∧
        (other.containerIds otherId).length = others.length + 1) ∧
      (dashboard.containerIds displayId).Nodup ∧ (other.containerIds otherId).Nodup ∧
      (displayId.length = otherId.length ∨ displayId.utf8ByteSize = otherId.utf8ByteSize →
        displayId ≠ otherId →
          List.Disjoint (dashboard.containerIds displayId) (other.containerIds otherId)) := by
  refine ⟨⟨length_containerIds made displayId, length_containerIds built otherId⟩,
    nodup_containerIds made displayId, nodup_containerIds built otherId, ?_⟩
  intro even different id member shared
  obtain ⟨rest, shape⟩ := exists_of_mem_containerIds made member
  obtain ⟨more, same⟩ := exists_of_mem_containerIds built shared
  rw [shape] at same
  exact different (Text.eq_of_append even (List.append_cancel_left same))

/-- A column whose name looks like the rest of an id, on two pages of one dashboard. -/
theorem containerIds_apart_count :
    ∃ dashboard, ofCharts ⟨[⟨"b-count", .integer⟩], [[.integer 1]]⟩ .standard
        [⟨.rowChart, .single "b-count", .none, .standard⟩] = .ok dashboard ∧
      dashboard.containerIds "a" = ["dc-a-count", "dc-a-chart-b-count_None"] ∧
      (dashboard.containerIds "a").Nodup ∧
      List.Disjoint (dashboard.containerIds "a") (dashboard.containerIds "b") := by
  obtain ⟨dashboard, made⟩ : ∃ dashboard, ofCharts ⟨[⟨"b-count", .integer⟩], [[.integer 1]]⟩
      .standard [⟨.rowChart, .single "b-count", .none, .standard⟩] = .ok dashboard := ⟨_, rfl⟩
  obtain ⟨_, apart, _, disjoint⟩ := containerIds_apart made made "a" "b"
  refine ⟨dashboard, made, ?_, apart, disjoint (.inl rfl) (by decide)⟩
  rw [containerIds_ofCharts made]
  rfl

/-- Of display ids that differ in length one may hold the start of a key. -/
example : Chart.containerId "a-chart-x" ⟨.rowChart, .single "f", .none, .standard⟩ =
    Chart.containerId "a" ⟨.rowChart, .single "x-chart-f", .none, .standard⟩ := rfl

end Dashboard

end LinkedViews
