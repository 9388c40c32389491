import Mathlib.Data.List.Induction
import QOrder.Steps

/-! What the events of a client say about its open transaction, and the states its
events were recorded in. -/

namespace QOrder

open KeyedTable Concurrency

variable {n : Nat} {owner : Uuid → Uuid} {req : Fin n → Request} {D : Deployment owner}
  {p p' : Clients n} {t u : Fin n} {q : Stmt} {σ σ' : Sys n} {l : List (Event n)} {e : Event n}

/-- Statements that run inside a transaction, and begin one where none has begun. -/
def Stmt.begins : Stmt → Bool
  | query _ | command _ => true
  | _ => false

def Event.ends (e : Event n) : Bool :=
  match e.stmt with
  | .commit | .rollback => true
  | _ => !e.succeeded

/-- The events since the client's last transaction ended. -/
def current (l : List (Event n)) : List (Event n) :=
  l.foldl (fun m e => if e.ends then [] else m ++ [e]) []

@[simp] theorem current_snoc (l : List (Event n)) (e : Event n) :
    current (l ++ [e]) = if e.ends then [] else current l ++ [e] := by
  simp [current]

theorem mem_current_last (he : e.ends = false) : e ∈ current (l ++ [e]) := by
  rw [current_snoc, if_neg (by simp [he])]
  exact List.mem_append_right _ List.mem_cons_self

theorem mem_current {x : Event n} (hx : x ∈ current l) (he : e.ends = false) :
    x ∈ current (l ++ [e]) := by
  rw [current_snoc, if_neg (by simp [he])]
  exact List.mem_append_left _ hx

/-- The row versions the statement of an event has written. -/
def Event.rows : Event n → Data
  | { stmt := .command _, resp := .ok rows, .. } => rows
  | _ => {}

def written (l : List (Event n)) : Data := l.foldl (fun w e => w.overlay e.rows) {}

@[simp] theorem written_snoc (l : List (Event n)) (e : Event n) :
    written (l ++ [e]) = (written l).overlay e.rows := by
  simp [written]

/-- The events have written nothing since the last transaction ended. -/
def Idle (l : List (Event n)) : Prop := ∀ e ∈ current l, e.stmt.isCommand = false

theorem Event.rows_query (h : e.stmt.isCommand = false) : e.rows = {} := by
  obtain ⟨client, stmt, resp, now, clock, appClock, catalog, before, after⟩ := e
  cases stmt <;> first | rfl | cases h

theorem written_idle (h : ∀ e ∈ l, e.stmt.isCommand = false) : written l = {} := by
  induction l using List.reverseRecOn with
  | nil => rfl
  | append_singleton l e ih =>
    rw [written_snoc, Event.rows_query (h e (by simp)), ih fun x hx => h x (by simp [hx])]
    rfl

theorem Idle.nil : Idle ([] : List (Event n)) := by
  intro e he
  cases he

theorem Idle.snoc (h : Idle l) (he : e.stmt.isCommand = false) : Idle (l ++ [e]) := by
  intro x hx
  rw [current_snoc] at hx
  split at hx
  · cases hx
  · rcases List.mem_append.mp hx with hx | hx
    · exact h x hx
    · rw [List.mem_singleton.mp hx]
      exact he

theorem Idle.ended (l : List (Event n)) (he : e.ends = true) : Idle (l ++ [e]) := by
  intro x hx
  rw [current_snoc, if_pos he] at hx
  cases hx

/-- The open transaction is the one the client's events have begun and written. -/
structure Sys.Tracks (σ : Sys n) (t : Fin n) : Prop where
  began : ∀ e ∈ current (own t σ.history), e.stmt.begins = true → σ.began t = some e.now
  writes : σ.writes t = written (current (own t σ.history))

namespace Sys.Tracks

theorem same (h : σ.Tracks t) (hl : own t σ'.history = own t σ.history)
    (hw : σ'.writes t = σ.writes t) (hb : σ'.began t = σ.began t) : σ'.Tracks t := by
  refine ⟨fun e he hq => ?_, ?_⟩
  · rw [hb]
    exact h.began e (hl ▸ he) hq
  · rw [hw, hl, h.writes]

theorem moves (h : σ.Tracks t) (hu : u ≠ t) (hm : σ.Moves u σ') (r : Except DbError q.Resp) :
    (σ.record u q r σ').Tracks t :=
  h.same (own_other hu ..) (hm.writes t hu.symm) (hm.began t hu.symm)

theorem ended (r : Except DbError q.Resp) (he : (σ.event t q r σ'.data).ends = true)
    (hw : σ'.writes t = {}) : (σ.record t q r σ').Tracks t := by
  have hc : current (own t (σ.record t q r σ').history) = [] := by
    rw [Sys.record, own_self, current_snoc, if_pos he]
  refine ⟨fun e hm => ?_, ?_⟩
  · rw [hc] at hm
    cases hm
  · rw [hc]
    exact hw

theorem ran (h : σ.Tracks t) (r : Except DbError q.Resp) (he : (σ.event t q r σ'.data).ends = false)
    (hb : σ'.began t = if q.begins then some (σ.now t) else σ.began t)
    (hw : σ'.writes t = (σ.writes t).overlay (σ.event t q r σ'.data).rows) :
    (σ.record t q r σ').Tracks t := by
  have hc : current (own t (σ.record t q r σ').history) =
      current (own t σ.history) ++ [σ.event t q r σ'.data] := by
    rw [Sys.record, own_self, current_snoc, if_neg (by simp [he])]
  refine ⟨fun e hm hq => ?_, ?_⟩
  · rw [hc] at hm
    show σ'.began t = some e.now
    rw [hb]
    rcases List.mem_append.mp hm with hm | hm
    · have hn := h.began e hm hq
      have hnow : σ.now t = e.now := by simp [Sys.now, hn]
      split
      · rw [hnow]
      · exact hn
    · rw [List.mem_singleton.mp hm] at hq ⊢
      rw [if_pos (show q.begins = true from hq)]
      rfl
  · rw [hc, written_snoc, ← h.writes]
    exact hw

theorem exec_self (h : σ.Tracks t) {r : Except DbError q.Resp} (hx : Exec t q σ r σ') :
    σ'.Tracks t := by
  cases hx with
  | kill hq =>
    cases q with
    | command c => exact ended _ rfl (by simp [Sys.abort])
    | _ => cases hq
  | perform hb =>
    cases q with
    | query q =>
      exact h.ran _ rfl (by simp [Sys.answer, Sys.begin_, Stmt.begins]) (Data.overlay_empty _).symm
    | command c =>
      simp only [Sys.perform, Sys.answer]
      cases c.violation (σ.ctx t) (σ.view t) with
      | some e => exact ended _ rfl (by simp [Sys.abort])
      | none =>
        exact h.ran _ rfl (by simp [Sys.write, Sys.begin_, Stmt.begins]) (by simp [Sys.write]; rfl)
    | commit => exact ended _ rfl (by simp [Sys.answer, Sys.commit])
    | rollback => exact ended _ rfl (by simp [Sys.answer, Sys.abort])
    | appNow => exact h.ran _ rfl rfl (Data.overlay_empty _).symm
    | publish => exact h.ran _ rfl rfl (Data.overlay_empty _).symm

theorem exec_other (h : σ.Tracks t) (hu : u ≠ t) {r : Except DbError q.Resp} (hx : Exec u q σ r σ') :
    σ'.Tracks t := by
  cases hx with
  | kill hq => exact h.moves hu moves_abort _
  | perform hb =>
    cases q with
    | query q => exact h.moves hu moves_begin _
    | command c =>
      simp only [Sys.perform, Sys.answer]
      cases c.violation (σ.ctx u) (σ.view u) with
      | some e => exact h.moves hu moves_abort _
      | none => exact h.moves hu moves_write _
    | commit =>
      have hut : t ≠ u := Ne.symm hu
      exact h.same (own_other hu ..)
        (by simp [Sys.perform, Sys.answer, Sys.record, Sys.commit, hut])
        (by simp [Sys.perform, Sys.answer, Sys.record, Sys.commit, hut])
    | rollback => exact h.moves hu moves_abort _
    | appNow => exact h.moves hu moves_refl _
    | publish => exact h.moves hu moves_refl _

end Sys.Tracks

theorem Deployment.Reaches.tracks (hr : D.Reaches req p) (t : Fin n) : p.state.Tracks t := by
  induction hr generalizing t with
  | refl =>
    refine ⟨fun e he => ?_, rfl⟩
    simp [Deployment.start, Deployment.initial, Sys.start, current] at he
  | tail _ hs ih =>
    cases hs with
    | env he => cases he <;> exact (ih t).same rfl rfl rfl
    | @exec u _ _ _ _ hp hx =>
      by_cases hu : u = t
      · subst hu
        exact (ih u).exec_self hx
      · exact (ih t).exec_other hu hx

/-- A client that has written nothing sees the committed rows. -/
theorem Sys.Tracks.view (h : σ.Tracks t) (hi : Idle (own t σ.history)) : σ.view t = σ.data := by
  rw [Sys.view, h.writes, written_idle hi, Data.overlay_empty]

/-- A client whose only command in its transaction was the last one sees what it wrote. -/
theorem Sys.Tracks.view_rows (h : σ.Tracks t) (hl : own t σ.history = l ++ [e]) (hi : Idle l)
    (he : e.ends = false) : σ.view t = σ.data.overlay e.rows := by
  rw [Sys.view, h.writes, hl, current_snoc, if_neg (by simp [he]), written_snoc, written_idle hi]
  simp [Data.overlay]

theorem Sys.Tracks.now (h : σ.Tracks t) (he : e ∈ current (own t σ.history))
    (hq : e.stmt.begins = true) : σ.now t = e.now := by
  simp [Sys.now, h.began e he hq]

section Replay

/-- The state an event of a run was recorded in, and the run from there on. -/
theorem Deployment.Reaches.replay (hr : D.Reaches req p) {hb ha : List (Event n)}
    (hh : p.state.history = hb ++ e :: ha) :
    ∃ (p₀ : Clients n) (q : Stmt) (k : Except DbError q.Resp → Action Response)
      (r : Except DbError q.Resp) (σ' : Sys n), D.Reaches req p₀ ∧ p₀.state.history = hb ∧
      p₀.threads e.client = .stmt q k ∧ Exec e.client q p₀.state r σ' ∧
      e = p₀.state.event e.client q r σ'.data ∧
      (machine owner n).Reachable ⟨σ', Function.update p₀.threads e.client (k r)⟩ p := by
  induction hr generalizing ha with
  | refl => simp [Deployment.start, Deployment.initial, Sys.start] at hh
  | @tail p₁ p₂ hr₁ hs ih =>
    have later {ha : List (Event n)} (hh : p₁.state.history = hb ++ e :: ha) := ih hh
    cases hs with
    | env he =>
      have hh' : p₁.state.history = hb ++ e :: ha := by cases he <;> exact hh
      obtain ⟨p₀, q, k, r, σ', h₀, h₁, h₂, h₃, h₄, h₅⟩ := later hh'
      exact ⟨p₀, q, k, r, σ', h₀, h₁, h₂, h₃, h₄, h₅.tail (.env he)⟩
    | @exec t q k r σ₁ hp hx =>
      have hhist : σ₁.history = p₁.state.history ++ [p₁.state.event t q r σ₁.data] := by
        cases hx <;> rfl
      rw [hhist] at hh
      rcases List.eq_nil_or_concat ha with rfl | ⟨ha', x, rfl⟩
      · obtain ⟨rfl, he⟩ := List.append_inj' hh rfl
        cases he
        exact ⟨p₁, q, k, r, σ₁, hr₁, rfl, hp, hx, rfl, .refl⟩
      · have hh' : p₁.state.history ++ [p₁.state.event t q r σ₁.data] =
            (hb ++ e :: ha') ++ [x] := by simpa using hh
        obtain ⟨p₀, q₀, k₀, r₀, σ₀, h₀, h₁, h₂, h₃, h₄, h₅⟩ := later (List.append_inj' hh' rfl).1
        exact ⟨p₀, q₀, k₀, r₀, σ₀, h₀, h₁, h₂, h₃, h₄, h₅.tail (.exec hp hx)⟩

end Replay

end QOrder
