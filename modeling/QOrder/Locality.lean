import QOrder.Effects
import QOrder.RegionCommands

/-! A program that keeps to a region, running alone. It changes nothing elsewhere, and what it
answers and does is told by the region it finds. -/

namespace QOrder

open KeyedTable Concurrency

variable {ζ : Type} [DecidableEq ζ] {m : Atlas ζ} {z : ζ} {limit : Uuid} {d d' : Data}
  {σ τ : Sys 1} {q : Stmt} {α β : Type}

/-- The program keeps to the region, and the value it returns satisfies `post`. -/
abbrev KeepsTo (m : Atlas ζ) (z : ζ) (a : Action α) (post : α → Prop) : Prop :=
  a.Guarded (Stmt.Within m z) (Stmt.Answers m z) post

/-- The region finds the same in both catalogs. -/
def Catalog.Alike (m : Atlas ζ) (z : ζ) (c c' : Catalog) : Prop :=
  ∀ q : Query, q.Within m z → ∀ ctx d, q.eval ctx c' d = q.eval ctx c d

/-- A client that has kept to the region since it found the data `d`. It may generate ids
below `limit`. -/
structure Sys.Local (m : Atlas ζ) (z : ζ) (limit : Uuid) (d : Data) (σ : Sys 1) : Prop where
  catalog : σ.catalog.Charted m z
  placed : σ.data.Placed m
  writes : (σ.writes 0).Inside m z
  ids : ∀ id, σ.nextUuid ≤ id → id < limit → m.Free id z
  rest : ∀ x, x ≠ z → σ.data.part m x = d.part m x

/-- The two differ outside of the region only. -/
structure Sys.Alike (m : Atlas ζ) (z : ζ) (σ τ : Sys 1) : Prop where
  catalog : σ.catalog.Alike m z τ.catalog
  clock : τ.clock = σ.clock
  appClock : τ.appClock = σ.appClock
  nextUuid : τ.nextUuid = σ.nextUuid
  began : τ.began 0 = σ.began 0
  writes : τ.writes 0 = σ.writes 0
  part : τ.data.part m z = σ.data.part m z

namespace Sys.Local

theorem view (h : σ.Local m z limit d) : (σ.view 0).Placed m := h.placed.overlay h.writes.placed

/-- The transaction has ended, with the data left as they were. -/
theorem ended (h : σ.Local m z limit d) {σ' : Sys 1} (hc : σ'.catalog = σ.catalog)
    (hd : σ'.data = σ.data) (hw : σ'.writes 0 = {}) (hn : σ'.nextUuid = σ.nextUuid) :
    σ'.Local m z limit d where
  catalog := hc ▸ h.catalog
  placed := hd ▸ h.placed
  writes := hw ▸ Data.inside_empty
  ids := hn ▸ h.ids
  rest := hd ▸ h.rest

theorem same (h : σ.Local m z limit d) {σ' : Sys 1} (hc : σ'.catalog = σ.catalog)
    (hd : σ'.data = σ.data) (hw : σ'.writes 0 = σ.writes 0) (hn : σ'.nextUuid = σ.nextUuid) :
    σ'.Local m z limit d where
  catalog := hc ▸ h.catalog
  placed := hd ▸ h.placed
  writes := hw ▸ h.writes
  ids := hn ▸ h.ids
  rest := hd ▸ h.rest

theorem perform (h : σ.Local m z limit d) (hq : q.Within m z)
    (hn : (σ.perform 0 q).2.nextUuid ≤ limit) :
    q.Answers m z (σ.perform 0 q).1 ∧ (σ.perform 0 q).2.Local m z limit d := by
  cases q with
  | query q => exact ⟨Query.eval_answers hq h.view h.catalog, h.same rfl rfl rfl rfl⟩
  | command c =>
    cases hv : c.violation (σ.ctx 0) (σ.view 0) with
    | some e =>
      have hp : σ.perform 0 (.command c) = (.error e, σ.record 0 (.command c) (.error e) (σ.abort 0)) := by
        simp only [Sys.perform, Sys.answer, hv]
      rw [hp]
      exact ⟨trivial, h.ended rfl rfl (by simp [Sys.record, Sys.abort]) rfl⟩
    | none =>
      have hp : σ.perform 0 (.command c) =
          (.ok (σ.rows 0 c), σ.record 0 (.command c) (.ok (σ.rows 0 c)) (σ.write 0 c)) := by
        simp only [Sys.perform, Sys.answer, hv]
      rw [hp] at hn ⊢
      change σ.nextUuid + c.generated ≤ limit at hn
      have hin : (σ.rows 0 c).Inside m z :=
        Command.rows_inside hq h.view fun id hle hlt => h.ids id hle (hlt.trans_le hn)
      refine ⟨hin, h.catalog, h.placed, ?_, fun id hle hlt => ?_, h.rest⟩
      · have hw : ((σ.record 0 (.command c) (.ok (σ.rows 0 c)) (σ.write 0 c)).writes 0) =
            (σ.writes 0).overlay (σ.rows 0 c) := by simp [Sys.record, Sys.write]
        rw [hw]
        exact h.writes.overlay hin
      · exact h.ids id ((Nat.le_add_right ..).trans hle) hlt
  | commit =>
    refine ⟨trivial, h.catalog, h.view, ?_, h.ids, fun x hx => ?_⟩
    · have hw : (σ.perform 0 .commit).2.writes 0 = {} := by simp [Sys.perform, Sys.answer, Sys.record, Sys.commit]
      rw [hw]
      exact Data.inside_empty
    · change ((σ.data.overlay (σ.writes 0)).part m x) = d.part m x
      rw [Data.part_overlay, h.writes.part_other hx, Data.overlay_empty, h.rest x hx]
  | rollback =>
    exact ⟨trivial, h.ended rfl rfl (by simp [Sys.perform, Sys.answer, Sys.record, Sys.abort]) rfl⟩
  | appNow => exact ⟨trivial, h.same rfl rfl rfl rfl⟩
  | publish channel event => exact ⟨trivial, h.same rfl rfl rfl rfl⟩

end Sys.Local

namespace Sys.Alike

theorem now (h : σ.Alike m z τ) : τ.now 0 = σ.now 0 := by
  rw [Sys.now, Sys.now, h.began, h.clock]

theorem ctx (h : σ.Alike m z τ) : τ.ctx 0 = σ.ctx 0 := by
  rw [Sys.ctx, Sys.ctx, h.now, h.nextUuid]

theorem view (h : σ.Alike m z τ) : (τ.view 0).part m z = (σ.view 0).part m z := by
  rw [Sys.view, Sys.view, Data.part_overlay, Data.part_overlay, h.part, h.writes]

variable (hσ : σ.Local m z limit d) (hτ : τ.Local m z limit d')

include hσ hτ in
theorem rows (h : σ.Alike m z τ) {c : Command} (hc : c.Within m z) : τ.rows 0 c = σ.rows 0 c := by
  rw [Sys.rows, Sys.rows, h.ctx, ← Command.rows_part hc hτ.view, h.view, Command.rows_part hc hσ.view]

include hσ hτ in
theorem violation (h : σ.Alike m z τ) {c : Command} (hc : c.Within m z) :
    c.violation (τ.ctx 0) (τ.view 0) = c.violation (σ.ctx 0) (σ.view 0) := by
  rw [h.ctx, ← Command.violation_part hc hτ.view, h.view, Command.violation_part hc hσ.view]

/-- Both transactions have ended without a commit. -/
theorem ended (h : σ.Alike m z τ) (r r' : Except DbError q.Resp) :
    (σ.record 0 q r (σ.abort 0)).Alike m z (τ.record 0 q r' (τ.abort 0)) where
  catalog := h.catalog
  clock := h.clock
  appClock := h.appClock
  nextUuid := h.nextUuid
  began := by simp [Sys.record, Sys.abort]
  writes := by simp [Sys.record, Sys.abort]
  part := h.part

include hσ hτ in
theorem perform (h : σ.Alike m z τ) (hq : q.Within m z) :
    (τ.perform 0 q).1 = (σ.perform 0 q).1 ∧ (σ.perform 0 q).2.Alike m z (τ.perform 0 q).2 := by
  cases q with
  | query q =>
    have he : q.eval (τ.ctx 0) τ.catalog (τ.view 0) = q.eval (σ.ctx 0) σ.catalog (σ.view 0) := by
      rw [h.ctx, h.catalog q hq, ← Query.eval_part hq hτ.view, h.view, Query.eval_part hq hσ.view]
    refine ⟨congrArg Except.ok he, { h with began := ?_ }⟩
    simp [Sys.perform, Sys.answer, Sys.record, Sys.begin_, h.now]
  | command c =>
    have hv := h.violation hσ hτ hq
    have hr := h.rows hσ hτ hq
    simp only [Sys.perform, Sys.answer, hv]
    cases c.violation (σ.ctx 0) (σ.view 0) with
    | some e => exact ⟨rfl, h.ended _ _⟩
    | none =>
      refine ⟨congrArg Except.ok hr, { h with nextUuid := ?_, began := ?_, writes := ?_ }⟩
      · simp [Sys.record, Sys.write, h.nextUuid]
      · simp [Sys.record, Sys.write, Sys.begin_, h.now]
      · simp [Sys.record, Sys.write, h.writes, hr]
  | commit =>
    refine ⟨rfl, { h with began := ?_, writes := ?_, part := h.view }⟩
    · simp [Sys.perform, Sys.answer, Sys.record, Sys.commit]
    · simp [Sys.perform, Sys.answer, Sys.record, Sys.commit]
  | rollback => exact ⟨rfl, h.ended _ _⟩
  | appNow => exact ⟨congrArg Except.ok h.appClock, { h with }⟩
  | publish channel event => exact ⟨rfl, { h with }⟩

end Sys.Alike

theorem Sys.Local.start {c : Catalog} {clock appClock : Timestamp} {nextUuid : Uuid} (hc : c.Charted m z)
    (hd : d.Placed m) (hf : ∀ id, nextUuid ≤ id → id < limit → m.Free id z) :
    (Sys.start 1 c d clock appClock nextUuid).Local m z limit d where
  catalog := hc
  placed := hd
  writes := Data.inside_empty
  ids := hf
  rest _ _ := rfl

theorem Sys.Alike.start {c c' : Catalog} {clock appClock : Timestamp} {nextUuid : Uuid}
    (hc : c.Alike m z c') (hp : d'.part m z = d.part m z) :
    (Sys.start 1 c d clock appClock nextUuid).Alike m z (Sys.start 1 c' d' clock appClock nextUuid) where
  catalog := hc
  clock := rfl
  appClock := rfl
  nextUuid := rfl
  began := rfl
  writes := rfl
  part := hp

/-- Generated ids only grow. -/
theorem Sys.nextUuid_perform (σ : Sys 1) (q : Stmt) : σ.nextUuid ≤ (σ.perform 0 q).2.nextUuid := by
  cases q with
  | command c =>
    simp only [Sys.perform, Sys.answer]
    cases c.violation (σ.ctx 0) (σ.view 0) with
    | some e => exact le_rfl
    | none => exact Nat.le_add_right ..
  | _ => exact le_rfl

/-- The two have published the same. -/
def Sys.Echoes (σ τ : Sys 1) : Prop := ∀ channel, messagesOn channel τ.history = messagesOn channel σ.history

theorem Sys.Echoes.perform (h : σ.Echoes τ) (q : Stmt) : (σ.perform 0 q).2.Echoes (τ.perform 0 q).2 := by
  intro channel
  change messagesOn channel (τ.history ++ [_]) = messagesOn channel (σ.history ++ [_])
  have hc := h channel
  simp only [messagesOn, List.filterMap_append] at hc ⊢
  rw [hc]
  rfl

/-- Two runs of a program that keeps to a region, from systems that differ outside of it. -/
theorem KeepsTo.alone {a : Action α} {post : α → Prop} (h : KeepsTo m z a post)
    (hσ : σ.Local m z limit d) (hτ : τ.Local m z limit d') (ha : σ.Alike m z τ) (he : σ.Echoes τ)
    (hn : (σ.alone a).2.nextUuid ≤ limit) :
    (τ.alone a).1 = (σ.alone a).1 ∧ ((σ.alone a).2.Alike m z (τ.alone a).2 ∧
      (σ.alone a).2.Echoes (τ.alone a).2) ∧
        (σ.alone a).2.Local m z limit d ∧ (τ.alone a).2.Local m z limit d' := by
  refine Prog.Guarded.alike (fun (q : Stmt) (τ : Sys 1) => τ.perform 0 q)
    (A := fun σ τ : Sys 1 => (σ.Alike m z τ ∧ σ.Echoes τ) ∧ σ.Local m z limit d ∧ τ.Local m z limit d')
    (C := fun σ : Sys 1 => σ.nextUuid ≤ limit) (fun q σ hC => (σ.nextUuid_perform q).trans hC) ?_ h hn
    ⟨⟨ha, he⟩, hσ, hτ⟩
  rintro q σ τ hq hC ⟨⟨ha, he⟩, hσ, hτ⟩
  obtain ⟨heq, ha'⟩ := ha.perform hσ hτ hq
  obtain ⟨hans, hσ'⟩ := hσ.perform hq hC
  obtain ⟨-, hτ'⟩ := hτ.perform hq (ha'.nextUuid.trans_le hC)
  exact ⟨hans, heq, ⟨ha', he.perform q⟩, hσ', hτ'⟩

end QOrder
