import TransferWorker.System.Frames

/-! # Invariants of all messages in the broker

A predicate `Q` says what may be true of an entry on a queue. `Everywhere Q` holds of a world when it
is true of every entry on every queue, the entries that are delivered or buffered counting as on the
main queue. All changes but a publication move entries around; so an invariant of all messages is an
invariant of what is published, and of what a message takes along from one queue to another. -/

namespace TransferWorker

open CallTrees World

/-- **What is true of every entry in the broker.** -/
structure Everywhere (settings : Settings) (Q : String → Entry → Prop) (w : World) : Prop where
  /-- On the queues. -/
  queued : ∀ q, ∀ e ∈ w.queue q, Q q e
  /-- Among the unacknowledged deliveries. -/
  unacked : ∀ d ∈ w.unacked, Q settings.queueName d.2
  /-- Among the deliveries that the iterator has not yielded. -/
  buffered : ∀ d ∈ w.buffered, Q settings.queueName d.2

namespace Everywhere

variable {settings : Settings} {Q Q' : String → Entry → Prop} {w w' : World}

/-- A step that leaves the messages where they are. -/
theorem of_eq (h : Everywhere settings Q w) (hqueue : w'.queue = w.queue)
    (hunacked : w'.unacked = w.unacked) (hbuffered : w'.buffered = w.buffered) :
    Everywhere settings Q w' where
  queued q e he := h.queued q e (hqueue ▸ he)
  unacked d hd := h.unacked d (hunacked ▸ hd)
  buffered d hd := h.buffered d (hbuffered ▸ hd)

/-- It is a matter of the broker. -/
theorem of_same (h : Everywhere settings Q w) (hsame : Aspect.broker.Same w w') :
    Everywhere settings Q w' := by
  simp only [Aspect.Same, Prod.mk.injEq] at hsame
  exact h.of_eq hsame.1 hsame.2.1 hsame.2.2.1

/-- A queue gets other entries. -/
theorem setQueue (h : Everywhere settings Q w) (q : String) {es : List Entry} (hes : ∀ e ∈ es, Q q e) :
    Everywhere settings Q (w.setQueue q es) where
  queued q' e he := by
    by_cases hq : q' = q
    · subst hq
      rw [setQueue_self] at he
      exact hes e he
    · rw [setQueue_ne _ hq] at he
      exact h.queued q' e he
  unacked := h.unacked
  buffered := h.buffered

/-- An entry is put at the end of a queue. -/
theorem push (h : Everywhere settings Q w) {q : String} {e : Entry} (he : Q q e) :
    Everywhere settings Q (w.push q e) := by
  refine h.setQueue q fun e' he' => ?_
  rcases List.mem_append.1 he' with hmem | hmem
  · exact h.queued q e' hmem
  · rw [List.mem_singleton.1 hmem]
    exact he

/-- Deliveries go back to the main queue. -/
theorem putBack (h : Everywhere settings Q w) {back : List Entry} {unacked : List (Nat × Entry)}
    (hback : ∀ e ∈ back, Q settings.queueName e) (hunacked : ∀ d ∈ unacked, d ∈ w.unacked) :
    Everywhere settings Q (w.putBack settings back unacked) where
  queued := by
    refine (h.setQueue settings.queueName fun e he => ?_).queued
    rcases List.mem_append.1 he with hmem | hmem
    · exact hback e hmem
    · exact h.queued _ e hmem
  unacked d hd := h.unacked d (hunacked d hd)
  buffered d hd := absurd hd List.not_mem_nil

/-- The end of a channel puts entries back. -/
theorem closeChannel (h : Everywhere settings Q w) : Everywhere settings Q (w.closeChannel settings) := by
  have hback : Everywhere settings Q (w.putBack settings (w.unacked.map Prod.snd) []) := by
    refine h.putBack (fun e he => ?_) fun d hd => absurd hd List.not_mem_nil
    obtain ⟨d, hd, rfl⟩ := List.mem_map.1 he
    exact h.unacked d hd
  exact hback.of_eq rfl rfl rfl

/-- The end of the consumer does so too. -/
theorem cancelConsumer (h : Everywhere settings Q w) :
    Everywhere settings Q (w.cancelConsumer settings) := by
  refine h.putBack (fun e he => ?_) fun d hd => List.mem_of_mem_filter hd
  obtain ⟨d, hd, rfl⟩ := List.mem_map.1 he
  exact h.unacked d (List.mem_of_mem_filter hd)

/-- A delivery is an entry of the queue. -/
theorem deliver (h : Everywhere settings Q w) {e : Entry} {rest : List Entry}
    (hq : w.queue settings.queueName = e :: rest) :
    Everywhere settings Q (w.deliver settings e rest) := by
  have hhead : Q settings.queueName e := h.queued _ e (hq ▸ List.mem_cons_self ..)
  have hnew : ∀ ds : List (Nat × Entry), (∀ d ∈ ds, Q settings.queueName d.2) →
      ∀ d ∈ ds ++ [(w.nextTag, e)], Q settings.queueName d.2 := by
    intro ds hds d hd
    rcases List.mem_append.1 hd with hmem | hmem
    · exact hds d hmem
    · rw [List.mem_singleton.1 hmem]
      exact hhead
  refine ⟨(h.setQueue settings.queueName fun e' he' => ?_).queued, hnew _ h.unacked,
    hnew _ h.buffered⟩
  exact h.queued _ e' (hq ▸ List.mem_cons_of_mem _ he')

/-- What is received was buffered. -/
theorem receive (h : Everywhere settings Q w) {tag : Nat} {e : Entry} {rest : List (Nat × Entry)}
    (hb : w.buffered = (tag, e) :: rest) : Everywhere settings Q (w.receive tag e rest) where
  queued := h.queued
  unacked := h.unacked
  buffered d hd := h.buffered d (hb ▸ List.mem_cons_of_mem _ hd)

/-- An acknowledgement takes an entry away. -/
theorem ack (h : Everywhere settings Q w) (tag : Nat) : Everywhere settings Q (w.ack tag) where
  queued := h.queued
  unacked d hd := h.unacked d (List.mem_of_mem_filter hd)
  buffered := h.buffered

/-- What is asked of a published message holds afterwards of all. -/
theorem publish (h : Everywhere settings Q w) {t : Thread} {q : String} {m : Message}
    (hm : Q q ⟨m, w.chainOf t q m⟩) : Everywhere settings Q (w.publish settings t q m) :=
  (h.push hm).of_eq rfl rfl rfl

/-- **The environment's steps but replays**: what is accepted must meet the invariant, and what goes
back to the main queue when its time to live is over. -/
theorem move (h : Everywhere settings Q w) (hm : Move settings w w')
    (haccept : ∀ m, w'.accepted = m :: w.accepted → Q settings.queueName ⟨m, []⟩)
    (hexpire : ∀ (e : Entry) properties, Q settings.retryQueueName e →
      Q settings.queueName { e with message := ⟨e.message.body, properties⟩ })
    (hreplay : ¬Replays settings w w') : Everywhere settings Q w' := by
  cases hm with
  | accept m => exact (h.push (haccept m rfl)).of_eq rfl rfl rfl
  | deliver _ _ hq => exact h.deliver hq
  | expire properties hq =>
      have he := h.queued settings.retryQueueName
      rw [hq] at he
      exact (h.setQueue _ fun e' he' => he e' (List.mem_cons_of_mem _ he')).push
        (hexpire _ properties (he _ (List.mem_cons_self ..)))
  | replay properties remaining hq _ =>
      refine absurd ⟨_, ?_, properties, remaining, rfl⟩ hreplay
      rw [hq]
      exact List.mem_append_right _ (List.mem_cons_self ..)
  | breakChannel => exact h.closeChannel
  | activeProgress _ _ hp =>
      obtain ⟨objects, rfl⟩ := hp.frame
      exact h.of_eq rfl rfl rfl
  | lateProgress _ hp =>
      obtain ⟨objects, rfl⟩ := hp.frame
      exact h.of_eq rfl rfl rfl
  | _ => exact h.of_eq rfl rfl rfl

/-- **The consumer's calls**: what is published must meet the invariant. -/
theorem responds (h : Everywhere settings Q w) {op : Op} {r : Except Exn (Res op)}
    (hr : w.responds settings .consumer op r w')
    (hpublish : ∀ q m, op = .basicPublish q m → Q q ⟨m, w.chainOf .consumer q m⟩) :
    Everywhere settings Q w' := by
  cases broker_of_responds hr with
  | same hsame => exact h.of_same hsame
  | openChannel => exact h.closeChannel.of_eq rfl rfl rfl
  | bound n => exact h.of_eq rfl rfl rfl
  | publish q m _ hw =>
      have hpublished : Everywhere settings Q (w.publish settings .consumer q m) :=
        h.publish (hpublish q m rfl)
      rcases hw with rfl | rfl
      · exact hpublished
      · exact hpublished.of_eq rfl rfl rfl
  | ack tag _ => exact h.ack tag
  | receive _ hbuffered => exact h.receive hbuffered
  | cancel => exact h.cancelConsumer
  | close => exact h.closeChannel

/-- A crash puts entries back. -/
theorem crash (h : Everywhere settings Q w) : Everywhere settings Q (w.crash settings) :=
  h.closeChannel.of_eq rfl rfl rfl

end Everywhere

end TransferWorker
