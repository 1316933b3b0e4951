import TransferWorker.System.Frames

/-! # What stays in the broker

Which bodies are present in the broker, and that every step but an acknowledgement keeps them there.

* **`World.Present`** — a body is on a queue, or unacknowledged under a tag that counts.
* **`World.Tags`**, `World.Own` — delivery tags identify deliveries.
* **`Grows`** — what every such step guarantees; `Move.grows` and `grows_of_responds`.
* **`World.due`** — the entries that are not acknowledged; `due_of_responds`, `Move.due`: they stay. -/

namespace TransferWorker

open CallTrees

/-- The queues of the topology. -/
def Settings.queues (settings : Settings) : List String :=
  [settings.queueName, settings.retryQueueName, settings.dlqName]

namespace World

/-- **A body is present**: on a queue of the topology, or unacknowledged under a tag in `keep`. -/
def Present (settings : Settings) (keep : Nat → Prop) (w : World) (body : ByteArray) : Prop :=
  (∃ q ∈ settings.queues, ∃ e ∈ w.queue q, e.message.body = body) ∨
    ∃ d ∈ w.unacked, keep d.1 ∧ d.2.message.body = body

/-- A body is present under any tag. -/
abbrev Holds (settings : Settings) (w : World) (body : ByteArray) : Prop :=
  w.Present settings (fun _ => True) body

/-- **Tags identify deliveries**: tags in use are below the next one, and a delivery that the
iterator has not yielded is the one that is unacknowledged under its tag. -/
structure Tags (w : World) : Prop where
  /-- Tags of unacknowledged deliveries are below the next one. -/
  below : ∀ d ∈ w.unacked, d.1 < w.nextTag
  /-- Tags of buffered deliveries are below the next one. -/
  buffered_below : ∀ d ∈ w.buffered, d.1 < w.nextTag
  /-- A tag has one delivery. -/
  functional : ∀ d ∈ w.buffered, ∀ d' ∈ w.unacked, d.1 = d'.1 → d = d'

/-- A tag was handed out, and what is unacknowledged under it is this message. -/
structure Own (tag : Nat) (m : Message) (w : World) : Prop where
  /-- The tag was handed out. -/
  below : tag < w.nextTag
  /-- What is unacknowledged under it is the message. -/
  message : ∀ d ∈ w.unacked, d.1 = tag → d.2.message = m

end World

open World

/-- **What a step that acknowledges nothing guarantees.** -/
structure Grows (settings : Settings) (w w' : World) : Prop where
  /-- What is present stays present. -/
  present : ∀ keep body, (∀ n, w.nextTag ≤ n → keep n) →
    w.Present settings keep body → w'.Present settings keep body
  /-- What is done stays done. -/
  done : ∀ key ∈ w.doneKeys, key ∈ w'.doneKeys
  /-- What is newly accepted is present. -/
  accepted : ∀ m ∈ w'.accepted, m ∈ w.accepted ∨ w'.Holds settings m.body
  /-- Tags identify deliveries. -/
  tags : w.Tags → w'.Tags
  /-- A delivery keeps its tag. -/
  own : ∀ tag m, Own tag m w → Own tag m w'

namespace Grows

variable {settings : Settings} {w w' : World}

/-- A step that leaves the broker, the store and the accepted messages alone. -/
theorem of_eq (hqueue : w'.queue = w.queue) (hunacked : w'.unacked = w.unacked)
    (hbuffered : w'.buffered = w.buffered) (htag : w'.nextTag = w.nextTag)
    (hdone : w'.processed = w.processed) (haccepted : w'.accepted = w.accepted) :
    Grows settings w w' where
  present keep body _ h := by
    rw [Present, hqueue, hunacked]
    exact h
  done key h := by
    rw [doneKeys, hdone]
    exact h
  accepted m h := .inl (haccepted ▸ h)
  tags h := by
    refine ⟨?_, ?_, ?_⟩
    · rw [hunacked, htag]
      exact h.below
    · rw [hbuffered, htag]
      exact h.buffered_below
    · rw [hbuffered, hunacked]
      exact h.functional
  own tag m h := by
    refine ⟨?_, ?_⟩
    · rw [htag]
      exact h.below
    · rw [hunacked]
      exact h.message

/-- The broker grows by nothing. -/
theorem refl : Grows settings w w := of_eq rfl rfl rfl rfl rfl rfl

/-- Steps that let the broker grow follow one another. -/
theorem trans {w'' : World} (h : Grows settings w w') (h' : Grows settings w' w'')
    (htag : w.nextTag ≤ w'.nextTag) : Grows settings w w'' where
  present keep body hkeep hp :=
    h'.present keep body (fun n hn => hkeep n (htag.trans hn)) (h.present keep body hkeep hp)
  done key hk := h'.done key (h.done key hk)
  accepted m hm := by
    rcases h'.accepted m hm with hm | hm
    · rcases h.accepted m hm with hm | hm
      · exact .inl hm
      · exact .inr (h'.present _ _ (fun _ _ => trivial) hm)
    · exact .inr hm
  tags ht := h'.tags (h.tags ht)
  own tag m ho := h'.own tag m (h.own tag m ho)

end Grows

namespace World

variable {settings : Settings} {w : World}

/-- The queue that was pushed to has the entry, after what was there. -/
@[simp] theorem push_queue_self (q : String) (e : Entry) :
    (w.push q e).queue q = w.queue q ++ [e] := setQueue_self ..

/-- Every queue keeps what it has when something is pushed. -/
theorem mem_push {q q' : String} {e e' : Entry} (h : e' ∈ w.queue q') :
    e' ∈ (w.push q e).queue q' := by
  by_cases hq : q' = q
  · subst hq
    rw [push_queue_self]
    exact List.mem_append_left _ h
  · rw [push, setQueue_ne _ hq]
    exact h

/-- Pushing keeps what is present. -/
theorem Present.push {keep : Nat → Prop} {body : ByteArray} (h : w.Present settings keep body)
    (q : String) (e : Entry) : (w.push q e).Present settings keep body := by
  rcases h with ⟨q', hq', e', he', hb⟩ | h
  · exact .inl ⟨q', hq', e', mem_push he', hb⟩
  · exact .inr h

/-- What is pushed to a queue of the topology is present. -/
theorem present_push {keep : Nat → Prop} {q : String} (hq : q ∈ settings.queues) (e : Entry) :
    (w.push q e).Present settings keep e.message.body :=
  .inl ⟨q, hq, e, by simp, rfl⟩

/-- The main queue is one of the queues. -/
theorem mem_queues_main : settings.queueName ∈ settings.queues := by simp [Settings.queues]

/-- So is the retry queue. -/
theorem mem_queues_retry : settings.retryQueueName ∈ settings.queues := by simp [Settings.queues]

/-- So is the dead-letter queue. -/
theorem mem_queues_dlq : settings.dlqName ∈ settings.queues := by simp [Settings.queues]

end World

namespace Grows

variable {settings : Settings} {w w' : World}

/-- Publishing to any queue. -/
theorem push (q : String) (e : Entry) : Grows settings w (w.push q e) where
  present _ _ _ h := h.push q e
  done _ h := h
  accepted _ h := .inl h
  tags h := ⟨h.below, h.buffered_below, h.functional⟩
  own _ _ h := ⟨h.below, h.message⟩

/-- Taking entries off a queue of the topology and pushing, to the main queue, one with the body of
each of them. -/
theorem move {q : String} {remaining : List Entry} {e : Entry} (m : Message)
    (hm : m.body = e.message.body)
    (hq : ∀ e' ∈ w.queue q, e' = e ∨ e' ∈ remaining) :
    Grows settings w ((w.setQueue q remaining).push settings.queueName
      { e with message := m }) where
  present keep body _ h := by
    rcases h with ⟨q', hq', e', he', hb⟩ | h
    · by_cases hqq : q' = q
      · subst hqq
        rcases hq e' he' with rfl | hrest
        · rw [← hb, ← hm]
          exact present_push mem_queues_main _
        · refine .inl ⟨q', hq', e', mem_push ?_, hb⟩
          rw [setQueue_self]
          exact hrest
      · refine .inl ⟨q', hq', e', mem_push ?_, hb⟩
        rw [setQueue_ne _ hqq]
        exact he'
    · exact .inr h
  done _ h := h
  accepted _ h := .inl h
  tags h := ⟨h.below, h.buffered_below, h.functional⟩
  own _ _ h := ⟨h.below, h.message⟩

/-- Some deliveries go back to the main queue. -/
theorem putBack {back : List Entry} {unacked : List (Nat × Entry)}
    (hsub : ∀ d ∈ unacked, d ∈ w.unacked) (hall : ∀ d ∈ w.unacked, d ∈ unacked ∨ d.2 ∈ back) :
    Grows settings w (w.putBack settings back unacked) where
  present keep body _ h := by
    rcases h with ⟨q, hq, e, he, hb⟩ | ⟨d, hd, hk, hb⟩
    · refine .inl ⟨q, hq, e, ?_, hb⟩
      by_cases hqq : q = settings.queueName
      · subst hqq
        show e ∈ (w.setQueue _ _).queue _
        rw [setQueue_self]
        exact List.mem_append_right _ he
      · show e ∈ (w.setQueue _ _).queue _
        rw [setQueue_ne _ hqq]
        exact he
    · rcases hall d hd with hd | hd
      · exact .inr ⟨d, hd, hk, hb⟩
      · refine .inl ⟨_, mem_queues_main, d.2, ?_, hb⟩
        show d.2 ∈ (w.setQueue _ _).queue _
        rw [setQueue_self]
        exact List.mem_append_left _ hd
  done _ h := h
  accepted _ h := .inl h
  tags h := ⟨fun d hd => h.below d (hsub d hd), fun d hd => absurd hd List.not_mem_nil,
    fun d hd => absurd hd List.not_mem_nil⟩
  own _ _ h := ⟨h.below, fun d hd => h.message d (hsub d hd)⟩

/-- The channel breaks. -/
theorem closeChannel : Grows settings w (w.closeChannel settings) := by
  have hback : Grows settings w (w.putBack settings (w.unacked.map Prod.snd) []) :=
    putBack (by simp) fun d hd => .inr (List.mem_map_of_mem hd)
  exact hback.trans (of_eq rfl rfl rfl rfl rfl rfl) le_rfl

/-- The head of the main queue is delivered. -/
theorem deliver {e : Entry} {rest : List Entry} (hq : w.queue settings.queueName = e :: rest) :
    Grows settings w (w.deliver settings e rest) where
  present keep body hkeep h := by
    rcases h with ⟨q, hqs, e', he, hb⟩ | ⟨d, hd, hk, hb⟩
    · -- a message at the head of the main queue is unacknowledged now
      by_cases hqq : q = settings.queueName
      · subst hqq
        rw [hq, List.mem_cons] at he
        rcases he with rfl | he
        · exact .inr ⟨(w.nextTag, e'), by simp [World.deliver], hkeep _ le_rfl, hb⟩
        · refine .inl ⟨_, hqs, e', ?_, hb⟩
          show e' ∈ (w.setQueue _ _).queue _
          rw [setQueue_self]
          exact he
      · refine .inl ⟨q, hqs, e', ?_, hb⟩
        show e' ∈ (w.setQueue _ _).queue _
        rw [setQueue_ne _ hqq]
        exact he
    · exact .inr ⟨d, List.mem_append_left _ hd, hk, hb⟩
  done _ h := h
  accepted _ h := .inl h
  tags h := by
    refine ⟨?_, ?_, ?_⟩
    · intro d hd
      rcases List.mem_append.1 hd with hd | hd
      · exact (h.below d hd).trans (Nat.lt_succ_self _)
      · rw [List.mem_singleton.1 hd]
        exact Nat.lt_succ_self _
    · intro d hd
      rcases List.mem_append.1 hd with hd | hd
      · exact (h.buffered_below d hd).trans (Nat.lt_succ_self _)
      · rw [List.mem_singleton.1 hd]
        exact Nat.lt_succ_self _
    · intro d hd d' hd' htag
      rcases List.mem_append.1 hd with hd | hd <;> rcases List.mem_append.1 hd' with hd' | hd'
      · exact h.functional d hd d' hd' htag
      · rw [List.mem_singleton.1 hd'] at htag
        exact absurd htag (h.buffered_below d hd).ne
      · rw [List.mem_singleton.1 hd] at htag
        exact absurd htag.symm (h.below d' hd').ne
      · rw [List.mem_singleton.1 hd, List.mem_singleton.1 hd']
  own tag m h := by
    refine ⟨h.below.trans (Nat.lt_succ_self _), fun d hd htag => ?_⟩
    rcases List.mem_append.1 hd with hd | hd
    · exact h.message d hd htag
    · rw [List.mem_singleton.1 hd] at htag
      exact absurd htag h.below.ne'

/-- A key is inserted into the store. -/
theorem markDone (key correlationId : String) : Grows settings w (w.markDone key correlationId) := by
  unfold World.markDone
  split_ifs with h
  · exact refl
  · refine ⟨fun _ _ _ hp => hp, fun k hk => ?_, fun _ hm => .inl hm, fun ht => ⟨ht.1, ht.2, ht.3⟩,
      fun _ _ ho => ⟨ho.1, ho.2⟩⟩
    simp only [doneKeys, List.map_append] at hk ⊢
    exact List.mem_append_left _ hk

/-- The iterator yields a delivery. -/
theorem receive {tag : Nat} {e : Entry} {rest : List (Nat × Entry)}
    (hb : w.buffered = (tag, e) :: rest) : Grows settings w (w.receive tag e rest) where
  present _ _ _ h := h
  done _ h := h
  accepted _ h := .inl h
  tags h := ⟨h.below, fun d hd => h.buffered_below d (hb ▸ List.mem_cons_of_mem _ hd),
    fun d hd => h.functional d (hb ▸ List.mem_cons_of_mem _ hd)⟩
  own _ _ h := ⟨h.below, h.message⟩

/-- The consumer is cancelled. -/
theorem cancelConsumer : Grows settings w (w.cancelConsumer settings) := by
  refine putBack (fun d hd => List.mem_of_mem_filter hd) fun d hd => ?_
  by_cases hmem : d.1 ∈ w.buffered.map Prod.fst
  · exact .inr (List.mem_map_of_mem (List.mem_filter.2 ⟨hd, by simpa using hmem⟩))
  · exact .inl (List.mem_filter.2 ⟨hd, by simpa using hmem⟩)

end Grows

/-! ## Every step but an acknowledgement -/

/-- A call is an acknowledgement. -/
def Op.isAck : Op → Bool
  | .basicAck _ => true
  | _ => false

variable {settings : Settings} {w w' : World}

/-- The environment's steps let the broker grow. -/
theorem Move.grows (h : Move settings w w') : Grows settings w w' := by
  cases h with
  | accept m =>
      have hpresent : (w.push settings.queueName ⟨m, []⟩).Holds settings m.body :=
        present_push mem_queues_main ⟨m, []⟩
      refine ⟨fun _ _ _ hp => hp.push _ _, fun _ hk => hk, fun m' hm' => ?_,
        fun ht => ⟨ht.1, ht.2, ht.3⟩, fun _ _ ho => ⟨ho.1, ho.2⟩⟩
      rcases List.mem_cons.1 hm' with rfl | hm'
      · exact .inr hpresent
      · exact .inl hm'
  | deliver _ _ hq => exact .deliver hq
  | expire properties hq =>
      exact .move _ rfl fun e' he' => by simpa [hq] using he'
  | replay properties remaining hq hrest =>
      refine .move _ rfl fun e' he' => ?_
      rw [hq] at he'
      rcases hrest with rfl | rfl
      · exact .inr he'
      · simp only [List.mem_append, List.mem_cons] at he' ⊢
        tauto
  | breakChannel => exact .closeChannel
  | activeProgress _ _ hp =>
      obtain ⟨objects, rfl⟩ := hp.frame
      exact .of_eq rfl rfl rfl rfl rfl rfl
  | lateProgress _ hp =>
      obtain ⟨objects, rfl⟩ := hp.frame
      exact .of_eq rfl rfl rfl rfl rfl rfl
  | _ => exact .of_eq rfl rfl rfl rfl rfl rfl

/-- The consumer's publications let the broker grow. -/
theorem Grows.publish (q : String) (m : Message) :
    Grows settings w (w.publish settings .consumer q m) := by
  have hrest : Grows settings (w.push q ⟨m, w.chainOf .consumer q m⟩)
      (w.publish settings .consumer q m) := by
    refine .of_eq rfl rfl rfl rfl rfl ?_
    simp only [World.publish, reduceCtorEq, false_and, if_false]
    rfl
  exact (Grows.push q ⟨m, w.chainOf .consumer q m⟩).trans hrest le_rfl

/-- Agreement on the broker and the store. -/
theorem Grows.of_same (hbroker : Aspect.broker.Same w w') (hstore : Aspect.store.Same w w') :
    Grows settings w w' := by
  simp only [Aspect.Same, Prod.mk.injEq] at hbroker hstore
  obtain ⟨hqueue, hunacked, hbuffered, htag, -, -, haccepted, -⟩ := hbroker
  exact .of_eq hqueue hunacked hbuffered htag hstore haccepted

/-- **Every call of the consumer but an acknowledgement lets the broker grow**, however it ends. -/
theorem grows_of_responds {op : Op} {r : Except Exn (Res op)} (hop : op.isAck = false)
    (h : w.responds settings .consumer op r w') : Grows settings w w' := by
  by_cases hstore : op.changes .store = false
  · cases broker_of_responds h with
    | same hsame => exact .of_same hsame (frame_of_responds hstore h)
    | openChannel => exact Grows.closeChannel.trans (.of_eq rfl rfl rfl rfl rfl rfl) le_rfl
    | bound n => exact .of_eq rfl rfl rfl rfl rfl rfl
    | publish q m _ hw =>
        rcases hw with rfl | rfl
        · exact .publish q m
        · exact (Grows.publish q m).trans (.of_eq rfl rfl rfl rfl rfl rfl) le_rfl
    | ack tag _ => cases hop
    | receive _ hbuffered => exact .receive hbuffered
    | cancel => exact .cancelConsumer
    | close => exact .closeChannel
  · -- only an insertion changes the store
    cases op with
    | markDone key correlationId =>
        cases r with
        | ok x =>
            obtain rfl := h
            exact .markDone key correlationId
        | error e =>
            rcases h with rfl | rfl
            · exact .refl
            · exact .markDone key correlationId
    | _ => exact absurd rfl hstore

/-! ## What is due -/

/-- **What is due**: the messages on the main queue, and the deliveries that are not acknowledged. -/
def World.due (settings : Settings) (w : World) : List Entry :=
  w.queue settings.queueName ++ w.unacked.map Prod.snd

/-- What is due stays due when deliveries go back to the main queue. -/
theorem due_putBack (back : List Entry) (rest : List (Nat × Entry))
    (h : (back ++ rest.map Prod.snd).Perm (w.unacked.map Prod.snd)) :
    (w.due settings).Subperm ((w.putBack settings back rest).due settings) := by
  have hmain : (w.putBack settings back rest).queue settings.queueName =
      back ++ w.queue settings.queueName := setQueue_self ..
  have hdue : (w.putBack settings back rest).due settings =
      back ++ w.queue settings.queueName ++ rest.map Prod.snd := by
    rw [World.due, hmain]
    rfl
  -- the queue and what goes back change places
  have hswap : (back ++ w.queue settings.queueName ++ rest.map Prod.snd).Perm
      (w.queue settings.queueName ++ (back ++ rest.map Prod.snd)) := by
    rw [← List.append_assoc]
    exact List.perm_append_comm.append_right _
  rw [hdue]
  exact (hswap.trans (h.append_left _)).symm.subperm

/-- The end of a channel leaves due what is due. -/
theorem due_closeChannel : (w.due settings).Subperm ((w.closeChannel settings).due settings) :=
  due_putBack (w.unacked.map Prod.snd) [] (List.append_nil _ ▸ .refl _)

/-- So does the end of the consumer. -/
theorem due_cancelConsumer : (w.due settings).Subperm ((w.cancelConsumer settings).due settings) := by
  refine due_putBack _ _ ?_
  rw [← List.map_append]
  refine List.Perm.map _ ?_
  have hparts := List.filter_append_perm (fun d => decide (d.1 ∈ w.buffered.map Prod.fst)) w.unacked
  simpa using hparts

/-- So does a new channel. -/
theorem due_openChannel (t : Thread) :
    (w.due settings).Subperm ((w.openChannel settings t).due settings) := by
  unfold World.openChannel
  split
  · exact due_closeChannel
  · exact .refl _

/-- So does the end of a connection. -/
theorem due_closeConnection (t : Thread) :
    (w.due settings).Subperm ((w.closeConnection settings t).due settings) := by
  unfold World.closeConnection
  split
  · exact due_closeChannel
  · exact .refl _

/-- A publication adds to what is due, or leaves it. -/
theorem due_push (q : String) (e : Entry) :
    (w.due settings).Subperm ((w.push q e).due settings) := by
  have hmain : (w.queue settings.queueName).Sublist ((w.push q e).queue settings.queueName) := by
    by_cases hq : settings.queueName = q
    · rw [hq, push_queue_self]
      exact List.sublist_append_left _ _
    · rw [World.push, setQueue_ne _ hq]
  exact (hmain.append_right _).subperm

/-- What is due is a matter of the main queue and of the unacknowledged deliveries. -/
theorem due_of_eq (hqueue : w'.queue settings.queueName = w.queue settings.queueName)
    (hunacked : w'.unacked = w.unacked) : (w.due settings).Subperm (w'.due settings) := by
  rw [World.due, World.due, hqueue, hunacked]

/-- **A call that acknowledges nothing leaves due what is due.** -/
theorem due_of_responds {op : Op} {r : Except Exn (Res op)} (hop : ∀ tag, op ≠ .basicAck tag)
    (h : w.responds settings t op r w') : (w.due settings).Subperm (w'.due settings) := by
  cases broker_of_responds h with
  | same hsame =>
      simp only [Aspect.Same, Prod.mk.injEq] at hsame
      exact due_of_eq (congrFun hsame.1 _) hsame.2.1
  | openChannel => exact due_openChannel t
  | bound n => exact .refl _
  | publish q m _ hw =>
      have hpublished : (w.due settings).Subperm ((w.publish settings t q m).due settings) :=
        due_push q ⟨m, w.chainOf t q m⟩
      rcases hw with rfl | rfl
      · exact hpublished
      · exact hpublished
  | ack tag _ => exact absurd rfl (hop tag)
  | receive _ _ => exact .refl _
  | cancel => exact due_cancelConsumer
  | close => exact due_closeConnection t

/-- **The environment leaves due what is due**: it delivers, and puts messages on the main queue. -/
theorem Move.due (hd : settings.Distinct) (h : Move settings w w') :
    (w.due settings).Subperm (w'.due settings) := by
  cases h with
  | accept m => exact due_push settings.queueName ⟨m, []⟩
  | @deliver e rest hopen hbound hq =>
      have hmain : (w.deliver settings e rest).queue settings.queueName = rest := setQueue_self ..
      have hdue : (w.deliver settings e rest).due settings = rest ++ (w.unacked.map Prod.snd ++ [e]) := by
        rw [World.due, hmain]
        simp [World.deliver]
      rw [hdue, World.due, hq, ← List.append_assoc]
      exact List.Perm.subperm (List.perm_append_singleton e _).symm
  | @expire e rest properties hq =>
      have hrest : (w.due settings).Subperm ((w.setQueue settings.retryQueueName rest).due settings) :=
        due_of_eq (setQueue_ne w hd.retry_ne_main.symm rest) rfl
      exact hrest.trans (due_push _ _)
  | @replay e before after properties remaining hq hrest =>
      have hremain : (w.due settings).Subperm ((w.setQueue settings.dlqName remaining).due settings) :=
        due_of_eq (setQueue_ne w hd.dlq_ne_main.symm remaining) rfl
      exact hremain.trans (due_push _ _)
  | breakChannel => exact due_closeChannel
  | activeProgress _ _ hp =>
      obtain ⟨objects, rfl⟩ := hp.frame
      exact .refl _
  | lateProgress _ hp =>
      obtain ⟨objects, rfl⟩ := hp.frame
      exact .refl _
  | _ => exact .refl _

end TransferWorker
