import QOrder.Runs

/-! What an item keeps of the menu. The values of its `INSERT` are never written again. -/

namespace QOrder

open KeyedTable Concurrency

variable {n : Nat} {owner : Uuid → Uuid} {req : Fin n → Request} {d₀ : Data} {σ : Sys n} {t : Fin n}

/-- `name_snapshot`, `price_snapshot`, `prep_time_snapshot`, `quantity`, `requested_at`. -/
def OrderItem.snapshot (i : OrderItem) : String × Money × Nat × Nat × Timestamp :=
  (i.nameSnapshot, i.priceSnapshot, i.prepTimeSnapshot, i.quantity, i.requestedAt)

/-- The rows an `INSERT INTO order_items` has written. -/
def Event.inserted : Event n → List OrderItem
  | ⟨_, .command (.insertItems _), .ok rows, _, _, _, _, _, _⟩ => rows.items
  | _ => []

def created (d₀ : Data) (h : List (Event n)) : List OrderItem := d₀.items ++ h.flatMap Event.inserted

theorem created_append (h h' : List (Event n)) :
    created d₀ (h ++ h') = created d₀ h ++ h'.flatMap Event.inserted := by
  rw [created, created, List.flatMap_append, List.append_assoc]

/-- The item has been created, with the snapshot it has now. -/
def AsCreated (d₀ : Data) (h : List (Event n)) (i : OrderItem) : Prop :=
  ∃ i₀ ∈ created d₀ h, i₀.id = i.id ∧ i₀.snapshot = i.snapshot

theorem AsCreated.append {h h' : List (Event n)} {i : OrderItem} (hi : AsCreated d₀ h i) :
    AsCreated d₀ (h ++ h') i := by
  obtain ⟨i₀, hi₀, hk⟩ := hi
  rw [AsCreated, created_append]
  exact ⟨i₀, List.mem_append_left _ hi₀, hk⟩

theorem Command.rows_snapshot {c : Command} {ctx : Ctx} {d : Data} {i : OrderItem}
    (hi : i ∈ (c.rows ctx d).items) :
    (∃ j ∈ d.items, j.id = i.id ∧ j.snapshot = i.snapshot) ∨ ∃ rows, c = .insertItems rows := by
  cases c with
  | insertItems rows => exact .inr ⟨rows, rfl⟩
  | cancelUnserved sessionId cancelReason =>
    obtain ⟨j, hj, -, rfl⟩ := mem_changed.mp hi
    exact .inl ⟨j, List.mem_of_mem_filter hj, rfl, rfl⟩
  | undoItem | serveItem | advanceItem | cancelItem =>
    obtain ⟨j, hj, -, rfl⟩ := mem_changed.mp hi
    exact .inl ⟨j, hj, rfl, rfl⟩
  | _ => cases hi

/-- The items of every table and of every open transaction are as they were created. -/
structure Made (d₀ : Data) (σ : Sys n) : Prop where
  ids : UniqueKeys (created d₀ σ.history)
  below : ∀ i ∈ created d₀ σ.history, i.id < σ.nextUuid
  rows : ∀ i ∈ σ.data.items, AsCreated d₀ σ.history i
  writes : ∀ u, ∀ i ∈ (σ.writes u).items, AsCreated d₀ σ.history i

namespace Made

theorem view (h : Made d₀ σ) : ∀ i ∈ (σ.view t).items, AsCreated d₀ σ.history i := by
  intro i hi
  rcases mem_of_mem_overlay hi with hi | hi
  · exact h.writes t i hi
  · exact h.rows i hi

/-- A statement that inserts nothing. -/
theorem record (h : Made d₀ σ) {q : Stmt} {r : Except DbError q.Resp} {σ' : Sys n}
    (hq : (σ.event t q r σ'.data).inserted = []) (hn : σ.nextUuid ≤ σ'.nextUuid)
    (hrows : ∀ i ∈ σ'.data.items, AsCreated d₀ σ.history i)
    (hwrites : ∀ u, ∀ i ∈ (σ'.writes u).items, AsCreated d₀ σ.history i) :
    Made d₀ (σ.record t q r σ') := by
  have hcreated : created d₀ (σ.record t q r σ').history = created d₀ σ.history := by
    change created d₀ (σ.history ++ [_]) = _
    rw [created_append, List.flatMap_singleton, hq, List.append_nil]
  refine ⟨?_, ?_, fun i hi => (hrows i hi).append, fun u i hi => (hwrites u i hi).append⟩
  · rw [hcreated]
    exact h.ids
  · rw [hcreated]
    exact fun i hi => (h.below i hi).trans_le hn

theorem abort_writes (h : Made d₀ σ) :
    ∀ u, ∀ i ∈ ((σ.abort t).writes u).items, AsCreated d₀ σ.history i := by
  intro u i hi
  by_cases hu : u = t
  · subst hu
    simp [Sys.abort] at hi
  · simp only [Sys.abort, Function.update_of_ne hu] at hi
    exact h.writes u i hi

theorem kill (h : Made d₀ σ) {q : Stmt} : Made d₀ (σ.kill t q) := by
  refine h.record ?_ le_rfl h.rows h.abort_writes
  cases q with
  | command c => cases c <;> rfl
  | _ => rfl

/-- An `INSERT INTO order_items` creates its rows under new ids. -/
theorem insertItems (h : Made d₀ σ) (rows : List NewItem) :
    Made d₀ (σ.record t (.command (.insertItems rows)) (.ok (σ.rows t (.insertItems rows)))
      (σ.write t (.insertItems rows))) := by
  have hcreated : created d₀ (σ.record t (.command (.insertItems rows)) (.ok (σ.rows t (.insertItems rows)))
      (σ.write t (.insertItems rows))).history =
      created d₀ σ.history ++ rows.mapIdx fun k n => n.row (σ.nextUuid + k) := by
    change created d₀ (σ.history ++ [_]) = _
    rw [created_append, List.flatMap_singleton]
    rfl
  have hbound : ∀ i ∈ rows.mapIdx (fun k n => n.row (σ.nextUuid + k)),
      σ.nextUuid ≤ i.id ∧ i.id < σ.nextUuid + rows.length := by
    intro i hi
    obtain ⟨m, hm, rfl⟩ := List.mem_mapIdx.mp hi
    exact ⟨Nat.le_add_right .., Nat.add_lt_add_left hm _⟩
  have hnew : ∀ i ∈ rows.mapIdx (fun k n => n.row (σ.nextUuid + k)),
      AsCreated d₀ (σ.history ++ [σ.event t (.command (.insertItems rows))
        (.ok (σ.rows t (.insertItems rows))) σ.data]) i := by
    intro i hi
    refine ⟨i, ?_, rfl, rfl⟩
    rw [created_append, List.flatMap_singleton]
    exact List.mem_append_right _ hi
  refine ⟨?_, ?_, fun i hi => (h.rows i hi).append, fun u i hi => ?_⟩
  · rw [hcreated, UniqueKeys, List.map_append, List.nodup_append]
    refine ⟨h.ids, Data.newItems_ids, ?_⟩
    rintro k hk k' hk' rfl
    obtain ⟨i, hi, rfl⟩ := List.mem_map.mp hk
    obtain ⟨i', hi', he⟩ := List.mem_map.mp hk'
    have hlt := h.below i hi
    have hle := (hbound i' hi').1
    exact absurd (hle.trans_lt (he.trans_lt hlt)) (lt_irrefl _)
  · rw [hcreated]
    intro i hi
    change i.id < σ.nextUuid + rows.length
    rcases List.mem_append.mp hi with hi | hi
    · exact (h.below i hi).trans_le (Nat.le_add_right ..)
    · exact (hbound i hi).2
  · by_cases hu : u = t
    · subst hu
      change i ∈ (Function.update σ.writes u _ u).items at hi
      rw [Function.update_self] at hi
      rcases mem_of_mem_overlay hi with hi | hi
      · exact hnew i hi
      · exact (h.writes u i hi).append
    · change i ∈ (Function.update σ.writes t _ u).items at hi
      rw [Function.update_of_ne hu] at hi
      exact (h.writes u i hi).append

/-- A command that inserts no item. -/
theorem command (h : Made d₀ σ) {c : Command} (hc : ∀ rows, c ≠ .insertItems rows) :
    Made d₀ (σ.record t (.command c) (.ok (σ.rows t c)) (σ.write t c)) := by
  have hrows : ∀ i ∈ (σ.rows t c).items, AsCreated d₀ σ.history i := by
    intro i hi
    obtain ⟨j, hj, hid, hsnapshot⟩ := (Command.rows_snapshot hi).resolve_right fun ⟨rows, he⟩ => hc rows he
    obtain ⟨i₀, hi₀, hid₀, hsnapshot₀⟩ := h.view j hj
    exact ⟨i₀, hi₀, hid₀.trans hid, hsnapshot₀.trans hsnapshot⟩
  refine h.record ?_ (Nat.le_add_right ..) h.rows fun u i hi => ?_
  · cases c with
    | insertItems rows => exact absurd rfl (hc rows)
    | _ => rfl
  · by_cases hu : u = t
    · subst hu
      simp only [Sys.write, Function.update_self, Data.overlay_items] at hi
      rcases mem_of_mem_overlay hi with hi | hi
      · exact hrows i hi
      · exact h.writes u i hi
    · simp only [Sys.write, Function.update_of_ne hu] at hi
      exact h.writes u i hi

theorem perform (h : Made d₀ σ) {q : Stmt} : Made d₀ (σ.perform t q).2 := by
  cases q with
  | query q => exact h.record rfl le_rfl h.rows h.writes
  | command c =>
    cases hv : c.violation (σ.ctx t) (σ.view t) with
    | some e =>
      have hp : σ.perform t (.command c) = (.error e, σ.record t (.command c) (.error e) (σ.abort t)) := by
        simp only [Sys.perform, Sys.answer, hv]
      rw [hp]
      refine h.record ?_ le_rfl h.rows h.abort_writes
      cases c <;> rfl
    | none =>
      have hp : σ.perform t (.command c) =
          (.ok (σ.rows t c), σ.record t (.command c) (.ok (σ.rows t c)) (σ.write t c)) := by
        simp only [Sys.perform, Sys.answer, hv]
      rw [hp]
      by_cases hc : ∃ rows, c = .insertItems rows
      · obtain ⟨rows, rfl⟩ := hc
        exact h.insertItems rows
      · exact h.command fun rows he => hc ⟨rows, he⟩
  | commit => exact h.record rfl le_rfl h.view h.abort_writes
  | rollback => exact h.record rfl le_rfl h.rows h.abort_writes
  | appNow => exact h.record rfl le_rfl h.rows h.writes
  | publish channel event => exact h.record rfl le_rfl h.rows h.writes

end Made

/-- In every reachable state an item has the values it was created with. -/
theorem Deployment.Reaches.made {D : Deployment owner} {p : Clients n} (hr : D.Reaches req p) :
    Made D.data p.state := by
  have hcreated : created D.data ([] : List (Event n)) = D.data.items := List.append_nil _
  induction hr with
  | refl =>
    refine ⟨?_, ?_, fun i hi => ⟨i, ?_, rfl, rfl⟩, fun u i hi => ?_⟩
    · exact hcreated ▸ D.ok.itemIds
    · exact hcreated ▸ D.below.items
    · exact hcreated ▸ hi
    · cases hi
  | tail _ hs ih =>
    cases hs with
    | exec _ hx =>
      cases hx with
      | perform => exact ih.perform
      | kill => exact ih.kill
    | env he =>
      cases he with
      | tick | edit => exact { ih with }

theorem Made.snapshot (h : Made d₀ σ) {i : OrderItem} (hi : i ∈ σ.data.items) :
    (∃ i₀ ∈ created d₀ σ.history, i₀.id = i.id) ∧
      ∀ i₀ ∈ created d₀ σ.history, i₀.id = i.id → i.snapshot = i₀.snapshot := by
  obtain ⟨i₁, hi₁, hid, hsnapshot⟩ := h.rows i hi
  refine ⟨⟨i₁, hi₁, hid⟩, fun i₀ hi₀ hid₀ => ?_⟩
  rw [eq_of_key_eq h.ids hi₀ hi₁ (hid₀.trans hid.symm), hsnapshot]

end QOrder
