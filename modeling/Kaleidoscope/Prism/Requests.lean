import Kaleidoscope.Prism.QueryPanel

/-!
# The requests of the panel

Every request has its own number, and so has the answer on screen.
-/

namespace Kaleidoscope.Prism

@[simp] theorem Request.abort_id (request : Request) : request.abort.id = request.id := rfl

namespace QueryPanel

variable {S N : Type} {reader : Reader N S} {panel : QueryPanel S}

/-- Numbers are not used twice. -/
structure Numbered (panel : QueryPanel S) : Prop where
  nodup : (panel.requests.map Request.id).Nodup
  lt_fresh : ∀ id ∈ panel.requests.map Request.id, id < panel.fresh
  shown : ∀ answer ∈ panel.outcome, answer.id < panel.fresh ∧
    answer.id ∉ panel.requests.map Request.id

/-- What changes neither the numbers nor the answer. -/
theorem Numbered.of_same {panel' : QueryPanel S} (h : panel.Numbered)
    (hids : panel'.requests.map Request.id = panel.requests.map Request.id)
    (houtcome : panel'.outcome = panel.outcome) (hfresh : panel.fresh ≤ panel'.fresh) :
    panel'.Numbered where
  nodup := hids ▸ h.nodup
  lt_fresh id hid := (h.lt_fresh id (hids ▸ hid)).trans_le hfresh
  shown answer hanswer := by
    obtain ⟨hlt, hnot⟩ := h.shown answer (houtcome ▸ hanswer)
    exact ⟨hlt.trans_le hfresh, hids ▸ hnot⟩

/-- A new request takes the next number. -/
theorem Numbered.issue {panel' : QueryPanel S} (h : panel.Numbered)
    (hids : panel'.requests.map Request.id = panel.requests.map Request.id ++ [panel.fresh])
    (houtcome : panel'.outcome = panel.outcome) (hfresh : panel'.fresh = panel.fresh + 1) :
    panel'.Numbered where
  nodup := by
    rw [hids, List.nodup_append_comm, List.singleton_append, List.nodup_cons]
    exact ⟨fun hmem => lt_irrefl _ (h.lt_fresh _ hmem), h.nodup⟩
  lt_fresh id hid := by
    rw [hids, List.mem_append, List.mem_singleton] at hid
    rw [hfresh]
    rcases hid with hid | rfl
    · exact (h.lt_fresh id hid).trans (Nat.lt_succ_self _)
    · exact Nat.lt_succ_self _
  shown answer hanswer := by
    obtain ⟨hlt, hnot⟩ := h.shown answer (houtcome ▸ hanswer)
    rw [hids, hfresh, List.mem_append, List.mem_singleton]
    exact ⟨hlt.trans (Nat.lt_succ_self _), not_or.mpr ⟨hnot, hlt.ne⟩⟩

theorem Numbered.drop (h : panel.Numbered) (id : Nat) : (panel.drop id).Numbered := by
  have hsub : ((panel.drop id).requests.map Request.id).Sublist (panel.requests.map Request.id) :=
    List.filter_sublist.map _
  refine ⟨h.nodup.sublist hsub, fun i hi => h.lt_fresh i (hsub.subset hi), fun answer hanswer => ?_⟩
  obtain ⟨hlt, hnot⟩ := h.shown answer hanswer
  exact ⟨hlt, fun hmem => hnot (hsub.subset hmem)⟩

theorem mem_of_request? {id : Nat} {request : Request} (h : panel.request? id = some request) :
    request ∈ panel.requests ∧ request.id = id :=
  ⟨List.mem_of_find?_eq_some h, by simpa using List.find?_some h⟩

/-- The request with a number is the only one. -/
theorem Numbered.eq_of_request? (h : panel.Numbered) {id : Nat} {request other : Request}
    (hrequest : panel.request? id = some request) (hother : other ∈ panel.requests)
    (hid : other.id = id) : other = request := by
  obtain ⟨hmem, hid'⟩ := mem_of_request? hrequest
  exact List.inj_on_of_nodup_map h.nodup hother hmem (hid.trans hid'.symm)

theorem mem_of_due {id queryMs : Nat} {request : Request} {next : Option (QueryOutcome S)}
    (h : panel.due reader id queryMs = some (request, next)) :
    panel.request? id = some request ∧
      ∃ fetched, request.stage = .settled fetched ∧ queryRange reader fetched queryMs = next := by
  obtain ⟨r, hr, hstage⟩ := Option.bind_eq_some_iff.mp h
  split at hstage
  · next fetched hsettled =>
    cases hstage
    exact ⟨hr, fetched, hsettled, rfl⟩
  · cases hstage

theorem map_id_setStage (panel : QueryPanel S) (id : Nat) (stage : Stage) :
    (panel.setStage id stage).requests.map Request.id = panel.requests.map Request.id := by
  rw [setStage, List.map_map]
  refine List.map_congr_left fun request _ => ?_
  simp only [Function.comp]
  split_ifs <;> rfl

theorem map_id_abort (panel : QueryPanel S) (id : Nat) :
    (panel.requests.map fun request =>
        if request.signalled = true ∧ request.id = id then request.abort else request).map
      Request.id = panel.requests.map Request.id := by
  rw [List.map_map]
  refine List.map_congr_left fun request _ => ?_
  simp only [Function.comp]
  split_ifs <;> rfl

theorem Numbered.setStage (h : panel.Numbered) (id : Nat) (stage : Stage) :
    (panel.setStage id stage).Numbered :=
  h.of_same (panel.map_id_setStage id stage) rfl le_rfl

theorem Numbered.dispatch (h : panel.Numbered) (event : AutoRefreshEvent S) :
    (panel.dispatch event).Numbered :=
  h.of_same rfl rfl le_rfl

theorem Numbered.executeQuery (h : panel.Numbered) (range : TimeRange) :
    (panel.executeQuery range).Numbered := by
  rw [QueryPanel.executeQuery]
  split_ifs
  · exact h
  · exact h.issue List.map_append rfl rfl

theorem Numbered.processEffect (h : panel.Numbered) (e : AutoRefreshEffect) :
    (panel.processEffect e).Numbered := by
  cases e with
  | scheduleTimer ms => exact h.of_same rfl rfl (Nat.le_succ _)
  | cancelTimer =>
    rw [QueryPanel.processEffect]
    split
    · exact h.of_same rfl rfl le_rfl
    · exact h
  | fetch =>
    rw [QueryPanel.processEffect]
    split_ifs
    · exact h.of_same rfl rfl (Nat.le_succ _)
    · exact h.issue List.map_append rfl rfl
  | cancelFetch =>
    rw [QueryPanel.processEffect]
    split
    · exact h.of_same (panel.map_id_abort _) rfl le_rfl
    · exact h

theorem Numbered.effectsProcessed (h : panel.Numbered) : panel.effectsProcessed.Numbered :=
  effectsProcessed_induction h (fun _ => h.of_same rfl rfl le_rfl)
    fun _ e hnumbered => hnumbered.processEffect e

/-- The answer to a request takes its number over. -/
theorem Numbered.show (h : panel.Numbered) {id : Nat} {request : Request}
    (hrequest : panel.request? id = some request) (next : QueryOutcome S) :
    Numbered { panel.drop id with outcome := some ⟨request.id, next⟩, isLoading := false } := by
  obtain ⟨hmem, hid⟩ := mem_of_request? hrequest
  refine ⟨(h.drop id).nodup, (h.drop id).lt_fresh, ?_⟩
  rintro _ ⟨⟩
  refine ⟨h.lt_fresh _ (List.mem_map_of_mem hmem), fun hdropped => ?_⟩
  obtain ⟨other, hother, hsame⟩ := List.mem_map.mp hdropped
  have hne := (List.mem_filter.mp hother).2
  simp [hsame.trans hid] at hne

theorem Numbered.continued (h : panel.Numbered) (id queryMs : Nat) :
    (panel.continued reader id queryMs).Numbered := by
  rw [QueryPanel.continued]
  split
  · next request next hdue =>
    have hshown := h.show (mem_of_due hdue).1 next
    rw [answered]
    split_ifs
    · exact hshown.dispatch _
    · exact hshown
  · exact h.drop id
  · exact h

/-- Every step keeps the numbers apart. -/
theorem Numbered.step (h : panel.Numbered) (event : PanelEvent) :
    (panel.step reader event).Numbered := by
  cases event with
  | queryChanged value => exact h.of_same rfl rfl le_rfl
  | submitted => exact h.executeQuery _
  | rangeChanged range =>
    have hchanged : Numbered { panel with state := { panel.state with range } } :=
      h.of_same rfl rfl le_rfl
    exact (hchanged.dispatch _).executeQuery range
  | refreshChanged refresh =>
    have hchanged : Numbered { panel with state := { panel.state with refresh } } :=
      h.of_same rfl rfl le_rfl
    exact hchanged.dispatch (.refreshChanged refresh)
  | visibilityChanged hidden => exact h.dispatch (.visibilityChanged hidden)
  | timerFired handle =>
    rw [QueryPanel.step, QueryPanel.timerFired]
    split_ifs
    · exact h.of_same rfl rfl le_rfl
    · exact h
  | effectsProcessed => exact h.effectsProcessed
  | responded id head => exact responded_induction h fun stage => h.setStage id stage
  | bodyArrived id text => exact bodyArrived_induction h fun stage => h.setStage id stage
  | continued id queryMs => exact h.continued id queryMs

theorem numbered_mount (url : UrlState) : (mount url : QueryPanel S).Numbered := by
  exact ⟨List.nodup_nil, nofun, nofun⟩

end QueryPanel

end Kaleidoscope.Prism
