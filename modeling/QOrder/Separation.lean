import QOrder.Justification

/-! The write sets of different clients stay apart: they share no row, and no two of
them open a session of one table. -/

namespace QOrder

open KeyedTable

namespace Data

/-- Every id is below the next one the database generates. -/
structure Below (d : Data) (k : Uuid) : Prop where
  sessions : ∀ s ∈ d.sessions, s.id < k
  orders : ∀ o ∈ d.orders, o.id < k
  items : ∀ i ∈ d.items, i.id < k
  calls : ∀ c ∈ d.calls, c.id < k

variable {d w v : Data} {k k' : Uuid}

theorem below_empty (k : Uuid) : Below {} k := ⟨by simp, by simp, by simp, by simp⟩

theorem Below.mono (h : d.Below k) (hk : k ≤ k') : d.Below k' where
  sessions s hs := lt_of_lt_of_le (h.sessions s hs) hk
  orders o ho := lt_of_lt_of_le (h.orders o ho) hk
  items i hi := lt_of_lt_of_le (h.items i hi) hk
  calls c hc := lt_of_lt_of_le (h.calls c hc) hk

theorem Below.overlay (hd : d.Below k) (hw : w.Below k) : (d.overlay w).Below k where
  sessions s hs := (mem_of_mem_overlay hs).elim (hw.sessions s) (hd.sessions s)
  orders o ho := (mem_of_mem_overlay ho).elim (hw.orders o) (hd.orders o)
  items i hi := (mem_of_mem_overlay hi).elim (hw.items i) (hd.items i)
  calls c hc := (mem_of_mem_overlay hc).elim (hw.calls c) (hd.calls c)

theorem overlaps_overlay (hd : d.overlaps v = false) (hw : w.overlaps v = false) :
    (d.overlay w).overlaps v = false := by
  obtain ⟨hs, ho, hi, hc⟩ := overlaps_eq_false.mp hd
  obtain ⟨hs', ho', hi', hc'⟩ := overlaps_eq_false.mp hw
  exact overlaps_eq_false.mpr ⟨fun s h => (mem_of_mem_overlay h).elim (hs' s) (hs s),
    fun o h => (mem_of_mem_overlay h).elim (ho' o) (ho o),
    fun i h => (mem_of_mem_overlay h).elim (hi' i) (hi i),
    fun c h => (mem_of_mem_overlay h).elim (hc' c) (hc c)⟩

theorem empty_overlaps (v : Data) : Data.overlaps {} v = false :=
  overlaps_eq_false.mpr ⟨by simp, by simp, by simp, by simp⟩

end Data

namespace Command

variable {ctx : Ctx} {d : Data}

theorem below_changed {V : Type} [Keyed V Uuid] {p : V → Bool} {f : V → V} {rows : List V} {k : Uuid}
    (hf : ∀ r, key (f r) = key r) (h : ∀ r ∈ rows, key r < k) :
    ∀ r ∈ changed p f rows, key r < k := by
  intro w hw
  obtain ⟨r, hr, -, rfl⟩ := mem_changed.mp hw
  rw [hf]
  exact h r hr

/-- A command writes versions of rows it sees and rows with generated ids. -/
theorem rows_below (h : d.Below ctx.nextUuid) (c : Command) :
    (c.rows ctx d).Below (ctx.nextUuid + c.generated) := by
  have hsessions (p : TableSession → Bool) (f : TableSession → TableSession)
      (hf : ∀ s, (f s).id = s.id) : Data.Below { sessions := changed p f d.sessions } ctx.nextUuid :=
    ⟨below_changed hf h.sessions, by simp, by simp, by simp⟩
  have hitems (p : OrderItem → Bool) (f : OrderItem → OrderItem)
      (hf : ∀ i, (f i).id = i.id) : Data.Below { items := changed p f d.items } ctx.nextUuid :=
    ⟨by simp, by simp, below_changed hf h.items, by simp⟩
  have hcalls (p : StaffCall → Bool) (f : StaffCall → StaffCall)
      (hf : ∀ c, (f c).id = c.id) : Data.Below { calls := changed p f d.calls } ctx.nextUuid :=
    ⟨by simp, by simp, by simp, below_changed hf h.calls⟩
  cases c with
  | insertSession | insertOrder | insertCall =>
    constructor <;> simp [rows, generated]
  | insertItems items =>
    refine ⟨by simp [rows], by simp [rows], ?_, by simp [rows]⟩
    intro i hi
    obtain ⟨m, hm, rfl⟩ := List.mem_mapIdx.mp hi
    exact Nat.add_lt_add_left hm _
  | closeSession | abandonSession | reopenSession | closeAbandoned | setTotal
  | touchSessionOfOrder | touchSession | setLastActivity => exact hsessions _ _ fun _ => rfl
  | undoItem | serveItem | advanceItem | cancelItem => exact hitems _ _ fun _ => rfl
  | acknowledgeCall => exact hcalls _ _ fun _ => rfl
  | cancelUnserved =>
    refine ⟨by simp [rows], by simp [rows], ?_, by simp [rows]⟩
    intro w hw
    obtain ⟨i, hi, -, rfl⟩ := Data.mem_cancelledItems.mp hw
    exact h.items i (Data.mem_itemsOf.mp hi).1
  | dismissPending =>
    refine ⟨by simp [rows], by simp [rows], by simp [rows], ?_⟩
    intro w hw
    obtain ⟨c, hc, rfl⟩ := Data.mem_dismissedCalls.mp hw
    exact h.calls c (Data.mem_pendingCalls.mp hc).1

/-- A command that writes an open session has an index entry for it, unless the
session was open before. -/
theorem opened_rows {c : Command} {r : TableSession} (hr : r ∈ (c.rows ctx d).sessions)
    (ho : r.status = .opened) : (r.tableId, r.id) ∈ c.indexEntries ctx d ∨
      ∃ s ∈ d.sessions, s.id = r.id ∧ s.tableId = r.tableId ∧ s.status = .opened := by
  cases c with
  | insertSession restaurantId tableId openedBy =>
    left
    simp only [rows, List.mem_singleton] at hr
    simp [indexEntries, hr]
  | reopenSession sessionId restaurantId => exact .inl (List.mem_map.mpr ⟨r, hr, rfl⟩)
  | closeSession | abandonSession | closeAbandoned =>
    obtain ⟨s, -, -, rfl⟩ := mem_changed.mp hr
    simp at ho
  | setTotal | touchSessionOfOrder | touchSession | setLastActivity =>
    obtain ⟨s, hs, -, rfl⟩ := mem_changed.mp hr
    exact .inr ⟨s, hs, rfl, rfl, ho⟩
  | _ => cases hr

end Command

namespace Sys

variable {n : Nat} {σ : Sys n} {t u : Fin n} {c : Command}

/-- The write set `w` of `t` is apart from those of the other clients. -/
structure Separate (σ : Sys n) (t : Fin n) (w : Data) : Prop where
  disjoint : ∀ u, u ≠ t → w.overlaps (σ.writes u) = false
  index : ∀ u, u ≠ t → ∀ r ∈ w.sessions, ∀ r' ∈ (σ.writes u).sessions,
    σ.data.Pending r → σ.data.Pending r' → r'.tableId ≠ r.tableId

theorem separate_empty (σ : Sys n) (t : Fin n) : σ.Separate t {} where
  disjoint _ _ := Data.empty_overlaps _
  index _ _ r hr := by cases hr

theorem not_waitsFor (hb : σ.blocked t (.command c) = false) (u : Fin n) :
    σ.waitsFor t u c = false := by
  simp only [blocked, List.any_eq_false] at hb
  simpa using hb u (List.mem_finRange u)

theorem rows_separate (hb : σ.blocked t (.command c) = false) (hu : u ≠ t) :
    (σ.rows t c).overlaps (σ.writes u) = false ∧
      ∀ e ∈ c.indexEntries (σ.ctx t) (σ.view t), σ.holdsEntry u e.1 = false := by
  have hw := not_waitsFor hb u
  have hne : (u != t) = true := by simpa using hu
  simp only [waitsFor, hne, Bool.true_and, Bool.or_eq_false_iff, List.any_eq_false] at hw
  exact ⟨hw.1, fun e he => by simpa using hw.2 e he⟩

theorem separate_rows (hd : UniqueKeys σ.data.sessions)
    (hs : σ.Separate t (σ.writes t)) (hb : σ.blocked t (.command c) = false) :
    σ.Separate t ((σ.writes t).overlay (σ.rows t c)) where
  disjoint u hu := Data.overlaps_overlay (hs.disjoint u hu) (rows_separate hb hu).1
  index u hu r hr r' hr' hp hp' := by
    rcases mem_of_mem_overlay hr with hr | hr
    · rcases Command.opened_rows hr hp.1 with he | ⟨s, hm, hk, ht, ho⟩
      · have hh := (rows_separate hb hu).2 _ he
        simp only [holdsEntry, List.any_eq_false] at hh
        intro he
        simpa [he, hp'.1] using hh r' hr'
      · rcases mem_of_mem_overlay hm with hm | hm
        · have hps : σ.data.Pending s := ⟨ho, fun x hx => hp.2 x (hk ▸ hx)⟩
          rw [← ht]
          exact hs.index u hu s hm r' hr' hps hp'
        · exact absurd ho (hp.2 s (hk ▸ lookup_of_mem hd hm))
    · exact hs.index u hu r hr r' hr' hp hp'

end Sys

end QOrder
