import QOrder.Closing
import QOrder.SweepRace

/-! Waiting for locks. An item's transaction locks the item before its session, a closing
one the session before the items: the two can wait for each other, and no others can. -/

namespace QOrder

open KeyedTable Concurrency

variable {n : Nat} {owner : Uuid → Uuid} {req : Fin n → Request}

section Cycles

variable {α : Type} {R : α → α → Prop} {a : α}

theorem cycle_next (h : Relation.TransGen R a a) : ∃ b, R a b ∧ Relation.TransGen R b b := by
  obtain ⟨b, hab, hba⟩ := Relation.TransGen.head'_iff.mp h
  exact ⟨b, hab, .tail' hba hab⟩

theorem cycle_prev (h : Relation.TransGen R a a) : ∃ b, R b a := by
  obtain ⟨b, -, hba⟩ := Relation.TransGen.tail'_iff.mp h
  exact ⟨b, hba⟩

end Cycles

/-- `t` cannot execute its next statement before `u` ends its transaction. -/
def waits (p : Clients n) (t u : Fin n) : Bool :=
  match p.threads t with
  | .stmt (.command c) _ => p.state.waitsFor t u c
  | _ => false

def Deadlock (p : Clients n) : Prop := ∃ t, Relation.TransGen (fun t u => waits p t u = true) t t

namespace Data

variable {d w v : Data}

/-- The row version takes its session out of use. -/
def leaves (d : Data) (r : TableSession) : Bool :=
  r.status != .opened && (lookup r.id d.sessions).any fun s => s.status != r.status

/-- `w` takes a session out of use, and `v` holds an unserved item of it. -/
def entangled (d w v : Data) : Bool :=
  w.sessions.any fun r => d.leaves r && v.items.any fun i' =>
    (lookup i'.id d.items).any fun i => i.isUnserved && d.inSession r.id i

theorem entangled_iff : d.entangled w v = true ↔ ∃ r ∈ w.sessions, d.leaves r = true ∧
    ∃ i' ∈ v.items, ∃ i, lookup i'.id d.items = some i ∧ i.isUnserved = true ∧
      d.inSession r.id i = true := by
  simp [entangled, Option.any_eq_true]

theorem entangled_empty_left : d.entangled {} v = false := rfl

theorem entangled_empty_right : d.entangled w {} = false := by simp [entangled]

theorem entangled_overlay_left {w' : Data} (h : d.entangled w v = false)
    (h' : d.entangled w' v = false) : d.entangled (w.overlay w') v = false := by
  rw [Bool.eq_false_iff] at h h' ⊢
  intro he
  obtain ⟨r, hr, hrest⟩ := entangled_iff.mp he
  rcases mem_of_mem_overlay hr with hr | hr
  · exact h' (entangled_iff.mpr ⟨r, hr, hrest⟩)
  · exact h (entangled_iff.mpr ⟨r, hr, hrest⟩)

theorem entangled_overlay_right {v' : Data} (h : d.entangled w v = false)
    (h' : d.entangled w v' = false) : d.entangled w (v.overlay v') = false := by
  rw [Bool.eq_false_iff] at h h' ⊢
  intro he
  obtain ⟨r, hr, hl, i', hi', hrest⟩ := entangled_iff.mp he
  rcases mem_of_mem_overlay hi' with hi' | hi'
  · exact h' (entangled_iff.mpr ⟨r, hr, hl, i', hi', hrest⟩)
  · exact h (entangled_iff.mpr ⟨r, hr, hl, i', hi', hrest⟩)

end Data

/-- The update locks neither a session that others hold an unserved item of, to take it
out of use, nor an unserved item of a session that others are taking out of use. -/
def untangled (t : Fin n) (q : Stmt) (σ : Sys n) : Bool :=
  match q with
  | .command c => (List.finRange n).all fun u => u == t ||
      !(σ.data.entangled (σ.rows t c) (σ.writes u) || σ.data.entangled (σ.writes u) (σ.rows t c))
  | _ => true

def NoTangle (σ : Sys n) : Prop :=
  ∀ t u, t ≠ u → σ.data.entangled (σ.writes t) (σ.writes u) = false

section Tangles

variable {d₀ : Data} {σ σ' : Sys n} {t : Fin n} {q : Stmt} {r : Except DbError q.Resp} {c : Command}

theorem untangled_rows (h : untangled t (.command c) σ = true) {u : Fin n} (hu : u ≠ t) :
    σ.data.entangled (σ.rows t c) (σ.writes u) = false ∧
      σ.data.entangled (σ.writes u) (σ.rows t c) = false := by
  have hh := List.all_eq_true.mp h u (List.mem_finRange u)
  simpa [hu] using hh

/-- Writes of one client that are untangled with the others keep everything untangled. -/
theorem NoTangle.update (hn : NoTangle σ) {w : Data} (hd : σ'.data = σ.data)
    (hw : σ'.writes = Function.update σ.writes t w)
    (h : ∀ u, u ≠ t → σ.data.entangled w (σ.writes u) = false ∧
      σ.data.entangled (σ.writes u) w = false) : NoTangle σ' := by
  intro a b hab
  rw [hd, hw]
  by_cases ha : a = t
  · subst ha
    simpa [Function.update_of_ne hab.symm] using (h b hab.symm).1
  · by_cases hb : b = t
    · subst hb
      simpa [Function.update_of_ne ha] using (h a ha).2
    · simpa [Function.update_of_ne ha, Function.update_of_ne hb] using hn a b hab

theorem NoTangle.abort (hn : NoTangle σ) : NoTangle (σ.record t q r (σ.abort t)) :=
  hn.update rfl rfl fun _ _ => ⟨Data.entangled_empty_left, Data.entangled_empty_right⟩

theorem NoTangle.commit (hi : Inv owner req d₀ σ) (hn : NoTangle σ) {h : Holding} {l : List (Event n)}
    (ha : At owner t h l σ) (hc : h.Complete) (r : Except DbError Stmt.commit.Resp) :
    NoTangle (σ.record t .commit r (σ.commit t)) := by
  have hw := Holding.fits hi.ok ha.valid hc
  rw [← ha.writes] at hw
  intro a b hab
  show (σ.view t).entangled ((σ.commit t).writes a) ((σ.commit t).writes b) = false
  by_cases hat : a = t
  · simpa [Sys.commit, hat] using Data.entangled_empty_left
  by_cases hbt : b = t
  · simpa [Sys.commit, hbt] using Data.entangled_empty_right
  simp only [Sys.commit, Function.update_of_ne hat, Function.update_of_ne hbt]
  rw [Bool.eq_false_iff]
  intro he
  obtain ⟨r, hr, hl, i', hi', i, hli, hu, hin⟩ := Data.entangled_iff.mp he
  -- The rows that `a` and `b` hold are not the ones `t` commits.
  have hrow := (Data.overlaps_eq_false.mp ((hi.separate a).disjoint t (Ne.symm hat))).1 r hr
  have hitem := (Data.overlaps_eq_false.mp ((hi.separate b).disjoint t (Ne.symm hbt))).2.2.1 i' hi'
  have hli' : lookup i'.id σ.data.items = some i := by simpa [Sys.view, hitem] using hli
  refine Bool.eq_false_iff.mp (hn a b hab) (Data.entangled_iff.mpr ⟨r, hr, ?_, i', hi', i, hli', hu, ?_⟩)
  · simpa [Data.leaves, Sys.view, hrow] using hl
  · rwa [Sys.view, Data.inSession_overlay hi.ok hw (hi.ok.itemOrder i (mem_of_lookup hli'))] at hin

theorem NoTangle.exec (hi : Inv owner req d₀ σ) (hr : Ready owner req t q σ)
    (hu : untangled t q σ = true) (hx : Exec t q σ r σ') (hn : NoTangle σ) : NoTangle σ' := by
  cases hx with
  | kill hq => exact hn.abort
  | perform hb =>
    cases q with
    | command c =>
      simp only [Sys.perform, Sys.answer]
      cases c.violation (σ.ctx t) (σ.view t) with
      | some e => exact hn.abort
      | none =>
        refine hn.update rfl rfl fun u hut => ?_
        obtain ⟨h₁, h₂⟩ := untangled_rows hu hut
        exact ⟨Data.entangled_overlay_left (hn t u hut.symm) h₁,
          Data.entangled_overlay_right (hn u t hut) h₂⟩
    | commit =>
      obtain ⟨h, ha, hc, -⟩ := hr
      exact hn.commit hi ha hc _
    | rollback => exact hn.abort
    | query q => exact hn
    | appNow => exact hn
    | publish channel event => exact hn

theorem untangled_reachable {D : Deployment owner} {p : Clients n}
    (hr : ((machine owner n).restrict fun t q σ => untangled t q σ).Reachable (D.start req) p) :
    NoTangle p.state := by
  induction hr with
  | refl => exact fun _ _ _ => rfl
  | @tail p p' hp hs ih =>
    have hreach : D.Reaches req p := Machine.Reachable.of_restrict hp
    cases hs with
    | env he => cases he <;> exact ih
    | exec ht hx => exact ih.exec hreach.inv (hreach.kept.ready ht) hx.1 hx.2

end Tangles

section Waiting

variable {d₀ : Data} {σ : Sys n} {t u : Fin n} {h h' : Holding} {l l' : List (Event n)} {c c' : Command}

/-- The client has locked rows and still has to lock others. -/
structure Holding.Busy (h : Holding) (c : Command) : Prop where
  holds : h ≠ .nothing
  runs : h.Runs c

theorem overlaps_cases {w v : Data} (h : w.overlaps v = true) :
    (∃ s ∈ w.sessions, ∃ s', lookup s.id v.sessions = some s') ∨
      (∃ o ∈ w.orders, ∃ o', lookup o.id v.orders = some o') ∨
      (∃ i ∈ w.items, ∃ i', lookup i.id v.items = some i') ∨
      ∃ c ∈ w.calls, ∃ c', lookup c.id v.calls = some c' := by
  simpa [Data.overlaps, overlaps, Option.isSome_iff_exists, or_assoc] using h

/-- What a busy client has locked, and what it may lock next. -/
theorem Holding.Busy.cases (hb : h.Busy c) :
    (∃ s items kind, h = .leaving s items kind .marked ∧ ∃ k reason, c = .cancelUnserved k reason ∧ s.id = k) ∨
    (∃ s items kind stage, h = .leaving s items kind stage ∧ stage ≠ .dismissed ∧
      ((∃ k total, c = .setTotal k total ∧ s.id = k) ∨ ∃ k rid, c = .dismissPending k rid)) ∨
    (∃ i i', h = .moving i i' ∧ ∃ k, c = .touchSessionOfOrder k) ∨
    (∃ o items, h = .ordering o items ∧
      ((∃ rows, c = .insertItems rows) ∨ ∃ k at_, c = .setLastActivity k at_)) ∨
    (∃ s, h = .touching s ∧ ∃ rid tid k, c = .insertCall rid tid k) := by
  obtain ⟨hne, hr⟩ := hb
  cases c with
  | cancelUnserved k reason =>
    obtain ⟨s, items, kind, rfl, hk⟩ := hr
    exact .inl ⟨s, items, kind, rfl, k, reason, rfl, hk⟩
  | setTotal k total =>
    obtain ⟨s, items, rfl, hk, -⟩ := hr
    exact .inr (.inl ⟨s, items, .close, .cancelled, rfl, by simp, .inl ⟨k, total, rfl, hk⟩⟩)
  | dismissPending k rid =>
    obtain ⟨s, items, kind, stage, rfl, -, hst, -⟩ := hr
    exact .inr (.inl ⟨s, items, kind, stage, rfl, hst, .inr ⟨k, rid, rfl⟩⟩)
  | touchSessionOfOrder k =>
    obtain ⟨i, i', rfl, -⟩ := hr
    exact .inr (.inr (.inl ⟨i, i', rfl, k, rfl⟩))
  | insertItems rows =>
    obtain ⟨o, rfl⟩ := hr
    exact .inr (.inr (.inr (.inl ⟨o, [], rfl, .inl ⟨rows, rfl⟩⟩)))
  | setLastActivity k at_ =>
    obtain ⟨o, items, rfl, -⟩ := hr
    exact .inr (.inr (.inr (.inl ⟨o, items, rfl, .inr ⟨k, at_, rfl⟩⟩)))
  | insertCall rid tid k =>
    obtain ⟨s, rfl, -⟩ := hr
    exact .inr (.inr (.inr (.inr ⟨s, rfl, rid, tid, k, rfl⟩)))
  | _ => exact absurd hr hne

/-- No busy client has locked a staff call. -/
theorem Holding.Busy.calls (hb : h.Busy c) {now : Timestamp} {d : Data} : (h.writes now d).calls = [] := by
  rcases hb.cases with ⟨s, items, kind, rfl, -⟩ | ⟨s, items, kind, stage, rfl, hst, -⟩ |
    ⟨i, i', rfl, -⟩ | ⟨o, items, rfl, -⟩ | ⟨s, rfl, -⟩ <;> simp [writes, *]

theorem Holding.Busy.indexEntries (hb : h.Busy c) {ctx : Ctx} {d : Data} : c.indexEntries ctx d = [] := by
  rcases hb.cases with ⟨s, items, kind, -, k, reason, rfl, -⟩ |
    ⟨s, items, kind, stage, -, -, ⟨k, total, rfl, -⟩ | ⟨k, rid, rfl⟩⟩ | ⟨i, i', -, k, rfl⟩ |
    ⟨o, items, -, ⟨rows, rfl⟩ | ⟨k, at_, rfl⟩⟩ | ⟨s, -, rid, tid, k, rfl⟩ <;> rfl

/-- A closing client that is about to cancel waits for no busy client. -/
theorem marked_waits (hi : Inv owner req d₀ σ) (hn : NoTangle σ) {s : TableSession}
    {items : List OrderItem} {kind : Leave} {reason : String}
    (ht : At owner t (.leaving s items kind .marked) l σ) (hu : At owner u h' l' σ) (hb' : h'.Busy c')
    (hut : u ≠ t) : (σ.rows t (.cancelUnserved s.id reason)).overlaps (σ.writes u) = false := by
  rw [Bool.eq_false_iff]
  intro hw
  obtain ⟨w, hw, i', hi'⟩ : ∃ w ∈ (σ.rows t (.cancelUnserved s.id reason)).items,
      ∃ i', lookup w.id (σ.writes u).items = some i' := by
    rcases overlaps_cases hw with ⟨s, hs, -⟩ | ⟨o, ho, -⟩ | hi | ⟨c, hc, -⟩
    · cases hs
    · cases ho
    · exact hi
    · cases hc
  obtain ⟨i, him, hus, rfl⟩ := Data.mem_cancelledItems.mp hw
  have hview : (σ.view t).itemsOf s.id = σ.data.itemsOf s.id := by
    rw [ht.view]
    exact Data.itemsOf_of_nil rfl (by simp [Holding.writes])
  rw [hview] at him
  obtain ⟨hid, hin⟩ := Data.mem_itemsOf.mp him
  have hlook := hi.ok.mem_items.mp hid
  rw [hu.writes] at hi'
  rcases hb'.cases with ⟨s', items', kind', rfl, -⟩ | ⟨s', items', kind', stage, rfl, -⟩ |
    ⟨i₀, i₁, rfl, -⟩ | ⟨o, items', rfl, -⟩ | ⟨s', rfl, -⟩
  · simp [Holding.writes] at hi'
  · -- Both would take the session of the item out of use.
    have hm := mem_of_lookup hi'
    simp only [Holding.writes] at hm
    split at hm
    · cases hm
    · obtain ⟨i₀, hi₀, -, hmv⟩ := Data.cancelUnserved_move hm
      obtain ⟨hid₀, hin₀⟩ := Data.mem_itemsOf.mp (hu.valid.2.2.subset hi₀)
      have hk : i₀.id = i.id := hmv.id_eq.symm.trans (key_of_lookup hi')
      obtain rfl := eq_of_key_eq hi.ok.itemIds hid₀ hid hk
      have hsep := (Data.overlaps_eq_false.mp ((hi.separate t).disjoint u hut)).1
      rw [ht.writes, hu.writes] at hsep
      have hnone := hsep (kind.row (σ.now t) σ.data s .marked) (by simp [Holding.writes])
      simp [Holding.writes, lookup_singleton, Data.inSession_unique hi.ok hin₀ hin] at hnone
  · -- The moving client holds an unserved item of the session that leaves.
    obtain rfl : i' = i₁ := List.mem_singleton.mp (mem_of_lookup hi')
    refine Bool.eq_false_iff.mp (hn t u hut.symm) (Data.entangled_iff.mpr
      ⟨kind.row (σ.now t) σ.data s .marked, ?_, ?_, i', ?_, i, ?_, hus, by simpa using hin⟩)
    · simp [ht.writes, Holding.writes]
    · rcases ht.valid.2.1 with ho | ⟨ha, rfl⟩
      · cases kind <;> simp [Data.leaves, ht.valid.1, ho, Leave.status]
      · simp [Data.leaves, ht.valid.1, ha, Leave.status]
    · simp [hu.writes, Holding.writes]
    · rwa [show i'.id = i.id from key_of_lookup hi']
  · have hnew := hu.valid.itemNew i' (mem_of_lookup hi')
    rw [show i'.id = i.id from key_of_lookup hi', hlook] at hnew
    cases hnew
  · simp [Holding.writes] at hi'

/-- New rows are never waited for. -/
theorem fresh_overlaps {w v : Data} {k : Uuid} (hw : ∀ i ∈ w.items, k ≤ i.id) (hc : ∀ c ∈ w.calls, k ≤ c.id)
    (hs : w.sessions = []) (ho : w.orders = []) (hv : v.Below k) : w.overlaps v = false := by
  rw [Data.overlaps_eq_false]
  refine ⟨by simp [hs], by simp [ho], fun i hi => ?_, fun c hcm => ?_⟩
  · rw [lookup_eq_none]
    intro i' hi' (he : i'.id = i.id)
    exact absurd (hv.items i' hi') (not_lt.mpr (he ▸ hw i hi))
  · rw [lookup_eq_none]
    intro c' hc' (he : c'.id = c.id)
    exact absurd (hv.calls c' hc') (not_lt.mpr (he ▸ hc c hcm))

/-- Among busy clients only one that holds no session waits, for one that holds a session. -/
theorem busy_waits (hi : Inv owner req d₀ σ) (hn : NoTangle σ) (ht : At owner t h l σ) (hb : h.Busy c)
    (hu : At owner u h' l' σ) (hb' : h'.Busy c') (hw : σ.waitsFor t u c = true) :
    (σ.writes t).sessions = [] ∧ (σ.writes u).sessions ≠ [] := by
  simp only [Sys.waitsFor, hb.indexEntries, List.any_nil, Bool.or_false, Bool.and_eq_true, bne_iff_ne] at hw
  obtain ⟨hut, hw⟩ := hw
  have session (hnil : (σ.writes t).sessions = []) (hi : (σ.rows t c).items = [])
      (ho : (σ.rows t c).orders = []) (hc : (σ.rows t c).calls = []) :
      (σ.writes t).sessions = [] ∧ (σ.writes u).sessions ≠ [] := by
    refine ⟨hnil, fun hnone => ?_⟩
    have hf : (σ.rows t c).overlaps (σ.writes u) = false := by
      rw [Data.overlaps_eq_false]
      simp [hnone, hi, ho, hc]
    rw [hf] at hw
    cases hw
  rcases hb.cases with ⟨s, items, kind, rfl, k, reason, rfl, rfl⟩ |
    ⟨s, items, kind, stage, rfl, hst, ⟨k, total, rfl, rfl⟩ | ⟨k, rid, rfl⟩⟩ | ⟨i, i', rfl, k, rfl⟩ |
    ⟨o, items, rfl, ⟨rows, rfl⟩ | ⟨k, at_, rfl⟩⟩ | ⟨s, rfl, rid, tid, k, rfl⟩
  · rw [marked_waits hi hn ht hu hb' hut] at hw
    cases hw
  · -- The session is its own.
    have hsep := (Data.overlaps_eq_false.mp ((hi.separate t).disjoint u hut)).1
    rw [ht.writes] at hsep
    have hnone := hsep (kind.row (σ.now t) σ.data s stage) (by simp [Holding.writes])
    rcases overlaps_cases hw with ⟨r, hr, r', hr'⟩ | ⟨o, ho, -⟩ | ⟨i, hi, -⟩ | ⟨c, hc, -⟩
    · obtain ⟨r₀, -, hk, rfl⟩ := mem_changed.mp hr
      rw [Leave.row_id] at hnone
      rw [show (r₀.setTotal total).id = s.id from beq_iff_eq.mp hk, hnone] at hr'
      cases hr'
    · cases ho
    · cases hi
    · cases hc
  · rcases overlaps_cases hw with ⟨r, hr, -⟩ | ⟨o, ho, -⟩ | ⟨i, hi, -⟩ | ⟨c, hc, c', hc'⟩
    · cases hr
    · cases ho
    · cases hi
    · rw [hu.writes, hb'.calls] at hc'
      cases hc'
  · exact session (by simp [ht.writes, Holding.writes]) rfl rfl rfl
  · rw [fresh_overlaps (k := σ.nextUuid) _ _ rfl rfl (hi.writesBelow u)] at hw
    · cases hw
    · intro i hi
      obtain ⟨m, hm, rfl⟩ := List.mem_mapIdx.mp hi
      exact Nat.le_add_right _ _
    · simp [Sys.rows, Command.rows]
  · exact session (by simp [ht.writes, Holding.writes]) rfl rfl rfl
  · rw [fresh_overlaps (k := σ.nextUuid) _ _ rfl rfl (hi.writesBelow u)] at hw
    · cases hw
    · simp [Sys.rows, Command.rows]
    · simp [Sys.rows, Command.rows, Sys.ctx]

end Waiting

section Deadlock

variable {D : Deployment owner} {p : Clients n} {t u : Fin n}

/-- A client that is waited for and waits itself is busy. -/
theorem waits_busy (hr : D.Reaches req p) {v : Fin n} (hw : waits p t u = true)
    (hw' : waits p u v = true) : ∃ h c, At owner u h (own u p.state.history) p.state ∧ h.Busy c ∧
      p.state.waitsFor u v c = true := by
  unfold waits at hw'
  split at hw'
  next c k hp =>
    obtain ⟨h, ha, hal⟩ := hr.kept.ready hp
    refine ⟨h, c, ha, ⟨?_, hal.runs⟩, hw'⟩
    rintro rfl
    unfold waits at hw
    split at hw
    · have hnil : p.state.writes u = {} := ha.writes
      simp [Sys.waitsFor, Sys.holdsEntry, hnil, Data.overlaps_eq_false.mpr] at hw
    · cases hw
  · cases hw'

/-- A cycle needs three clients in a row that wait, and the middle ones are busy. -/
theorem not_deadlock (hr : D.Reaches req p) (hn : NoTangle p.state) : ¬ Deadlock p := by
  rintro ⟨t, hcycle⟩
  obtain ⟨s, hst⟩ := cycle_prev hcycle
  obtain ⟨u, htu, hcycle⟩ := cycle_next hcycle
  obtain ⟨v, huv, hcycle⟩ := cycle_next hcycle
  obtain ⟨w, hvw, -⟩ := cycle_next hcycle
  obtain ⟨h₁, c₁, ha₁, hb₁, hw₁⟩ := waits_busy hr hst htu
  obtain ⟨h₂, c₂, ha₂, hb₂, hw₂⟩ := waits_busy hr htu huv
  obtain ⟨h₃, c₃, ha₃, hb₃, -⟩ := waits_busy hr huv hvw
  have hi := hr.inv
  exact (busy_waits hi hn ha₁ hb₁ ha₂ hb₂ hw₁).2 (busy_waits hi hn ha₂ hb₂ ha₃ hb₃ hw₂).1

theorem deadlock_free
    (hr : ((machine owner n).restrict fun t q σ => untangled t q σ).Reachable (D.start req) p) :
    ¬ Deadlock p :=
  not_deadlock hr.of_restrict (untangled_reachable hr)

/-- The dish is turned to cooking before its table is checked out. -/
theorem deadlock_free_cafe : ∃ p, cafe.Reaches cafeClosing p ∧ ¬ Deadlock p ∧
    p.state.data.statusOf 10 = some .closed := by
  obtain ⟨p, hr, hc⟩ := reachable_playUnder (fun _ => 1) (cafe.start cafeClosing)
    untangled (fun p => decide (p.state.data.statusOf 10 = some .closed))
    (steps 0 15 ++ steps 1 4 ++ steps 2 8) (by decide +kernel)
  exact ⟨p, hr.of_restrict, deadlock_free hr, of_decide_eq_true hc⟩

/-- The cook has locked the dish and waits for the session; the checkout has locked the
session and waits for the dish. -/
theorem deadlock_free_fails : ¬ ∀ p, cafe.Reaches cafeClosing p → ¬ Deadlock p := by
  intro h
  obtain ⟨p, hr, hc⟩ := cafe.reaches_play cafeClosing (fun p => waits p 1 2 && waits p 2 1)
    (steps 0 15 ++ steps 1 2 ++ steps 2 3) (by decide)
  obtain ⟨h₁, h₂⟩ := Bool.and_eq_true_iff.mp hc
  exact h p hr ⟨1, .tail (.single h₁) h₂⟩

end Deadlock

end QOrder
