import Kaleidoscope.Sluice.View

/-!
# The book of a queue's callers

The callers keep book of what they enqueued, were handed and settled. Every call keeps the
book and the queue in balance, message by message.
-/

namespace Kaleidoscope.Sluice

open Aegis

/-- What the answers of a queue tell its callers. -/
structure Book where
  enqueued : List Message
  /-- The messages each `dequeue` returned, with the tenant it was asked for. -/
  delivered : List (TenantId × Message)
  /-- Delivered and not settled since. -/
  held : List Message
  acked : List Message
  nacked : List Message

namespace Book

/-- Before the first call. -/
def empty : Book := ⟨[], [], [], [], []⟩

/-- A call and its answer are entered. -/
def note (b : Book) : Request → Answer → Book
  | .enqueue tenant payload, .enqueued (.ok id) =>
    { b with enqueued := b.enqueued ++ [⟨id, tenant, payload⟩] }
  | .dequeue tenant, .dequeued (.ok (some message)) =>
    { b with delivered := b.delivered ++ [(tenant, message)], held := b.held ++ [message] }
  | .ack id, .acked (.ok _) =>
    { b with
      held := b.held.filter fun m => m.id ≠ id
      acked := b.acked ++ b.held.filter fun m => m.id = id }
  | .nack id, .nacked (.ok _) =>
    { b with
      held := b.held.filter fun m => m.id ≠ id
      nacked := b.nacked ++ b.held.filter fun m => m.id = id }
  | _, _ => b

/-- The messages enqueued for a tenant. -/
def enqueuedFor (b : Book) (tenant : TenantId) : List Message :=
  b.enqueued.filter fun m => m.tenant = tenant

/-- The messages that dequeues of a tenant returned. -/
def deliveredTo (b : Book) (tenant : TenantId) : List Message :=
  (b.delivered.filter fun e => e.1 = tenant).map Prod.snd

/-- Those of a list that no `nack` put back. -/
def unreturned (b : Book) (l : List Message) : List Message := l.filter fun m => m ∉ b.nacked

end Book

/-- Book and queue are in balance. -/
structure Tracks (b : Book) (v : View) : Prop where
  increasing : b.enqueued.Pairwise fun m m' => m.id.id < m'.id.id
  bounded : ∀ m ∈ b.enqueued, m.id.id ≤ v.nextId
  own : ∀ t, ∀ m ∈ v.queue t, m.tenant = t
  inFlight : ∀ id m, v.inFlight id = some m ↔ m ∈ b.held ∧ m.id = id
  conserved : ∀ m, (v.queue m.tenant).count m + b.held.count m + b.acked.count m =
    b.enqueued.count m
  nacked : ∀ m ∈ b.nacked, m ∈ b.enqueued
  delivered : ∀ e ∈ b.delivered, e.2.tenant = e.1 ∧ e.2 ∈ b.enqueued
  inOrder : ∀ t, b.unreturned (b.enqueuedFor t) =
    b.unreturned (b.deliveredTo t) ++ b.unreturned (v.queue t)

theorem tracks_empty : Tracks .empty Inner.empty.view where
  increasing := .nil
  bounded := by simp [Book.empty]
  own := by simp [Inner.view, Inner.empty, Inner.queue]
  inFlight := by simp [Inner.view, Inner.empty, Book.empty]
  conserved := by simp [Inner.view, Inner.empty, Inner.queue, Book.empty]
  nacked := by simp [Book.empty]
  delivered := by simp [Book.empty]
  inOrder := by simp [Inner.view, Inner.empty, Inner.queue, Book.empty, Book.unreturned,
    Book.enqueuedFor, Book.deliveredTo]

namespace Tracks

variable {b : Book} {v : View}

/-- No id is handed out twice. -/
theorem nodup_ids (h : Tracks b v) : (b.enqueued.map Message.id).Nodup :=
  List.pairwise_map.mpr (h.increasing.imp fun hlt he => absurd hlt (by rw [he]; exact lt_irrefl _))

theorem nodup (h : Tracks b v) : b.enqueued.Nodup := .of_map _ h.nodup_ids

/-- An enqueued message is known by its id. -/
theorem eq_of_id (h : Tracks b v) {m m' : Message} (hm : m ∈ b.enqueued) (hm' : m' ∈ b.enqueued)
    (hid : m.id = m'.id) : m = m' := List.inj_on_of_nodup_map h.nodup_ids hm hm' hid

theorem mem_enqueued_of_queue (h : Tracks b v) {t : TenantId} {m : Message}
    (hm : m ∈ v.queue t) : m ∈ b.enqueued := by
  have hcount := h.conserved m
  rw [h.own t m hm] at hcount
  have hpos := List.count_pos_iff.mpr hm
  exact List.count_pos_iff.mp (by omega)

theorem mem_enqueued_of_held (h : Tracks b v) {m : Message} (hm : m ∈ b.held) :
    m ∈ b.enqueued := by
  have hcount := h.conserved m
  have hpos := List.count_pos_iff.mpr hm
  exact List.count_pos_iff.mp (by omega)

/-- A message in flight is held once. -/
theorem count_held (h : Tracks b v) {id : MessageId} {m : Message} (hm : v.inFlight id = some m)
    (m' : Message) : (b.held.filter fun m => m.id = id).count m' = if m' = m then 1 else 0 := by
  obtain ⟨hheld, hid⟩ := (h.inFlight id m).mp hm
  split_ifs with he
  · rw [he, List.count_filter (by simpa using hid)]
    have hcount := h.conserved m
    have hle := List.nodup_iff_count_le_one.mp h.nodup m
    have hpos := List.count_pos_iff.mpr hheld
    omega
  · refine List.count_eq_zero.mpr fun hmem => he ?_
    obtain ⟨hheld', hid'⟩ := List.mem_filter.mp hmem
    have hm' : v.inFlight id = some m' := (h.inFlight id m').mpr ⟨hheld', by simpa using hid'⟩
    exact Option.some.inj (hm'.symm.trans hm)

end Tracks

private theorem count_filter_ite (p : Message → Prop) [DecidablePred p] (l : List Message)
    (m : Message) : (l.filter fun m => p m).count m = if p m then l.count m else 0 := by
  split_ifs with hm
  · exact List.count_filter (by simpa using hm)
  · exact List.count_eq_zero.mpr (by simp [hm])

namespace Tracks

variable {b : Book} {v : View}

/-- A message with the next id joins book and queue. -/
theorem enqueue (h : Tracks b v) (tenant : TenantId) (payload : List UInt8) (total : Nat) :
    Tracks { b with enqueued := b.enqueued ++ [⟨⟨v.nextId + 1⟩, tenant, payload⟩] }
      { v with
        nextId := v.nextId + 1
        queue := Function.update v.queue tenant
          (v.queue tenant ++ [⟨⟨v.nextId + 1⟩, tenant, payload⟩])
        total := total } where
  increasing := by
    refine List.pairwise_append.mpr ⟨h.increasing, List.pairwise_singleton _ _, ?_⟩
    intro m hm m' hm'
    rw [List.mem_singleton.mp hm']
    exact Nat.lt_succ_of_le (h.bounded m hm)
  bounded m hm := by
    rcases List.mem_append.mp hm with hm | hm
    · exact (h.bounded m hm).trans (Nat.le_succ _)
    · rw [List.mem_singleton.mp hm]
  own t m hm := by
    simp only [Function.update_apply] at hm
    split_ifs at hm with ht
    · rcases List.mem_append.mp hm with hm | hm
      · rw [h.own tenant m hm, ht]
      · rw [List.mem_singleton.mp hm, ht]
    · exact h.own t m hm
  inFlight := h.inFlight
  conserved m := by
    have hcount := h.conserved m
    simp only [Function.update_apply, List.count_append]
    split_ifs with ht
    · rw [ht] at hcount
      rw [List.count_append]
      omega
    · have hne : m ∉ [Message.mk ⟨v.nextId + 1⟩ tenant payload] := fun hm =>
        ht (by rw [List.mem_singleton.mp hm])
      rw [List.count_eq_zero.mpr hne]
      exact hcount
  nacked m hm := List.mem_append_left _ (h.nacked m hm)
  delivered e he := ⟨(h.delivered e he).1, List.mem_append_left _ (h.delivered e he).2⟩
  inOrder t := by
    have hfresh : (⟨⟨v.nextId + 1⟩, tenant, payload⟩ : Message) ∉ b.nacked := fun hm =>
      absurd (h.bounded _ (h.nacked _ hm)) (Nat.not_succ_le_self _)
    have horder := h.inOrder t
    simp only [Book.unreturned, Book.enqueuedFor, Book.deliveredTo, List.filter_append,
      Function.update_apply] at horder ⊢
    split_ifs with ht
    · subst ht
      rw [horder, List.append_assoc, List.filter_append]
      simp [hfresh]
    · rw [horder]
      simp [Ne.symm ht]

/-- The front of a queue is handed out. -/
theorem dequeue (h : Tracks b v) {tenant : TenantId} {message : Message} {queue : List Message}
    (hq : v.queue tenant = message :: queue) (total : Nat) :
    Tracks { b with
        delivered := b.delivered ++ [(tenant, message)]
        held := b.held ++ [message] }
      { v with
        queue := Function.update v.queue tenant queue
        inFlight := Function.update v.inFlight message.id (some message)
        total := total } := by
  have htenant : message.tenant = tenant := h.own tenant message (by simp [hq])
  have hknown : message ∈ b.enqueued := h.mem_enqueued_of_queue (t := tenant) (by simp [hq])
  refine ⟨h.increasing, h.bounded, fun t m hm => ?_, fun id m => ?_, fun m => ?_, h.nacked,
    fun e he => ?_, fun t => ?_⟩
  · simp only [Function.update_apply] at hm
    split_ifs at hm with ht
    · rw [ht]
      exact h.own tenant m (by rw [hq]; exact List.mem_cons_of_mem _ hm)
    · exact h.own t m hm
  · simp only [Function.update_apply, List.mem_append, List.mem_singleton]
    split_ifs with hid
    · constructor
      · intro he
        obtain rfl := Option.some.inj he
        exact ⟨.inr rfl, hid.symm⟩
      · rintro ⟨hheld | rfl, hid'⟩
        · rw [h.eq_of_id hknown (h.mem_enqueued_of_held hheld) (hid.symm.trans hid'.symm)]
        · rfl
    · rw [h.inFlight]
      refine and_congr_left fun hid' => ⟨.inl, fun hm => hm.resolve_right fun he => hid ?_⟩
      rw [← hid', he]
  · have hcount := h.conserved m
    simp only [Function.update_apply, List.count_append]
    split_ifs with ht
    · rw [ht, hq, List.count_cons] at hcount
      rw [List.count_singleton]
      omega
    · have hne : m ∉ [message] := fun hm => ht (by rw [List.mem_singleton.mp hm, htenant])
      rw [List.count_eq_zero.mpr hne]
      exact hcount
  · rcases List.mem_append.mp he with he | he
    · exact h.delivered e he
    · rw [List.mem_singleton.mp he]
      exact ⟨htenant, hknown⟩
  · have horder := h.inOrder t
    simp only [Book.unreturned, Book.enqueuedFor, Book.deliveredTo, List.filter_append,
      Function.update_apply] at horder ⊢
    split_ifs with ht
    · subst ht
      rw [horder, hq, ← List.singleton_append, List.filter_append]
      simp
    · rw [horder]
      simp [Ne.symm ht]

/-- What settling an id takes from the messages in flight it takes from those held. -/
private theorem inFlight_settled (h : Tracks b v) (id j : MessageId) (m : Message) :
    Function.update v.inFlight id none j = some m ↔
      m ∈ (b.held.filter fun m => m.id ≠ id) ∧ m.id = j := by
  simp only [Function.update_apply, List.mem_filter, decide_eq_true_eq]
  split_ifs with hj
  · exact ⟨fun he => (by cases he), fun ⟨⟨_, hne⟩, hid⟩ => absurd (hid.trans hj) hne⟩
  · rw [h.inFlight]
    exact and_congr_left fun hid => ⟨fun hm => ⟨hm, fun he => hj (hid.symm.trans he)⟩, And.left⟩

/-- The messages held under an id are settled for good. -/
theorem ack (h : Tracks b v) (id : MessageId) :
    Tracks { b with
        held := b.held.filter fun m => m.id ≠ id
        acked := b.acked ++ b.held.filter fun m => m.id = id }
      { v with inFlight := Function.update v.inFlight id none } where
  increasing := h.increasing
  bounded := h.bounded
  own := h.own
  inFlight := h.inFlight_settled id
  conserved m := by
    have hcount := h.conserved m
    simp only [List.count_append, count_filter_ite, ne_eq, ite_not]
    split_ifs <;> omega
  nacked := h.nacked
  delivered := h.delivered
  inOrder := h.inOrder

/-- They go back to the front of their queue. -/
theorem nack (h : Tracks b v) {id : MessageId} {message : Message}
    (hm : v.inFlight id = some message) (total : Nat) :
    Tracks { b with
        held := b.held.filter fun m => m.id ≠ id
        nacked := b.nacked ++ b.held.filter fun m => m.id = id }
      { v with
        queue := Function.update v.queue message.tenant (message :: v.queue message.tenant)
        inFlight := Function.update v.inFlight id none
        total := total } := by
  obtain ⟨hheld, hid⟩ := (h.inFlight id message).mp hm
  refine ⟨h.increasing, h.bounded, fun t m hmem => ?_, h.inFlight_settled id, fun m => ?_,
    fun m hmem => ?_, h.delivered, fun t => ?_⟩
  · simp only [Function.update_apply] at hmem
    split_ifs at hmem with ht
    · rcases List.mem_cons.mp hmem with rfl | hmem
      · exact ht.symm
      · rw [h.own _ m hmem, ht]
    · exact h.own t m hmem
  · have hcount := h.conserved m
    have htaken := h.count_held hm m
    rw [count_filter_ite] at htaken
    simp only [Function.update_apply, count_filter_ite, ne_eq, ite_not]
    by_cases he : m = message
    · subst he
      simp only [hid, if_true, List.count_cons_self] at htaken ⊢
      omega
    · have hqueue : List.count m (if m.tenant = message.tenant then
          message :: v.queue message.tenant else v.queue m.tenant) =
            (v.queue m.tenant).count m := by
        split_ifs with ht
        · rw [List.count_cons_of_ne (Ne.symm he), ht]
        · rfl
      rw [hqueue]
      simp only [he, if_false] at htaken
      split_ifs at htaken ⊢ <;> omega
  · rcases List.mem_append.mp hmem with hmem | hmem
    · exact h.nacked m hmem
    · exact h.mem_enqueued_of_held (List.mem_of_mem_filter hmem)
  · let taken := b.held.filter fun m => m.id = id
    have hsettled (l : List Message) : (l.filter fun m => m ∉ b.nacked ++ taken) =
        (b.unreturned l).filter fun m => m ∉ taken := by
      rw [Book.unreturned, List.filter_filter]
      exact List.filter_congr fun m _ => by simp [Bool.and_comm]
    have horder := congrArg (List.filter fun m => m ∉ taken) (h.inOrder t)
    have hmessage : message ∈ taken := List.mem_filter.mpr ⟨hheld, by simpa using hid⟩
    have hqueue : (b.unreturned (Function.update v.queue message.tenant
        (message :: v.queue message.tenant) t)).filter (fun m => m ∉ taken) =
          (b.unreturned (v.queue t)).filter fun m => m ∉ taken := by
      rw [Function.update_apply]
      split_ifs with ht
      · rw [ht, Book.unreturned, List.filter_filter, List.filter_cons_of_neg (by simp [hmessage]),
          ← List.filter_filter, ← Book.unreturned]
      · rfl
    rw [List.filter_append, ← hqueue, ← hsettled, ← hsettled, ← hsettled] at horder
    exact horder

/-- A `nack` of an id that is not in flight is not entered. -/
theorem note_nack_of_none (h : Tracks b v) {id : MessageId} (hnone : v.inFlight id = none) :
    b.note (.nack id) (.nacked (.ok ())) = b := by
  have hne : ∀ m ∈ b.held, m.id ≠ id := fun m hm hid => by
    have := (h.inFlight id m).mpr ⟨hm, hid⟩
    rw [hnone] at this
    cases this
  have hall : (b.held.filter fun m => m.id ≠ id) = b.held :=
    List.filter_eq_self.mpr fun m hm => by simpa using hne m hm
  have hnil : (b.held.filter fun m => m.id = id) = [] :=
    List.filter_eq_nil_iff.mpr fun m hm => by simpa using hne m hm
  rw [Book.note, hall, hnil, List.append_nil]

/-- Every call keeps book and queue in balance. -/
theorem ask (h : Tracks b v) (cap : Nat) (r : Request) :
    Tracks (b.note r (v.ask cap r).1) (v.ask cap r).2 := by
  cases r with
  | enqueue tenant payload =>
    rw [View.ask]
    split_ifs
    · exact h
    · exact h.enqueue tenant payload _
  | dequeue tenant =>
    rw [View.ask]
    rcases hq : v.queue tenant with _ | ⟨message, queue⟩
    · exact h
    · exact h.dequeue hq _
  | ack id => exact h.ack id
  | nack id =>
    rw [View.ask]
    cases hm : v.inFlight id with
    | none =>
      rw [h.note_nack_of_none hm]
      exact h
    | some message => exact h.nack hm _
  | depth tenant => exact h
  | totalDepth => exact h

/-- An enqueued message has exactly one place. -/
theorem count_eq_one (h : Tracks b v) {m : Message} (hm : m ∈ b.enqueued) :
    (v.queue m.tenant).count m + (v.inFlight m.id).toList.count m + b.acked.count m = 1 := by
  have hcount := h.conserved m
  have hone := List.count_eq_one_of_mem h.nodup hm
  have hheld : (v.inFlight m.id).toList.count m = b.held.count m := by
    cases hflight : v.inFlight m.id with
    | none =>
      have hnot : m ∉ b.held := fun hheld => by
        have := (h.inFlight m.id m).mpr ⟨hheld, rfl⟩
        rw [hflight] at this
        cases this
      simp [List.count_eq_zero.mpr hnot]
    | some m' =>
      have htaken := h.count_held hflight m
      rw [count_filter_ite, if_pos rfl] at htaken
      rw [Option.toList_some, List.count_singleton, htaken]
      by_cases he : m = m'
      · simp [he]
      · simp [he, Ne.symm he]
  omega

end Tracks

end Kaleidoscope.Sluice
