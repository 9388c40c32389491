import Mathlib.Data.List.Induction
import QOrder.ItemLifecycle
import QOrder.Alone

/-! Whole operations, executed one at a time: each starts from the data, the catalog and
the clock that the one before it has left. -/

namespace QOrder

open KeyedTable Concurrency

variable {n : Nat} {owner : Uuid → Uuid} {req : Fin n → Request} {D : Deployment owner}

/-- The database that the clients of a run leave to the next ones. -/
def Deployment.Reaches.next {p : Clients n} (hr : D.Reaches req p) : Deployment owner where
  catalog := p.state.catalog
  data := p.state.data
  clock := p.state.clock
  appClock := p.state.appClock
  nextUuid := p.state.nextUuid
  owned := hr.inv.owned
  ok := hr.inv.ok
  below := hr.inv.below

/-- One operation, run alone to its end; time passes while it runs as well. -/
inductive Operates (C : Request → Clients 1 → Prop) (D : Deployment owner) : Deployment owner → Prop
  | op (r : Request) {p : Clients 1} (hr : D.Reaches (fun _ => r) p)
      (hend : (p.threads 0).answer.isSome) (hc : C r p) : Operates C D hr.next

abbrev Serially (C : Request → Clients 1 → Prop) : Deployment owner → Deployment owner → Prop :=
  Relation.ReflTransGen (Operates C)

theorem Serially.weaken {C C' : Request → Clients 1 → Prop} {D D' : Deployment owner}
    (hr : Serially C D D') (hC : ∀ r p, C r p → C' r p) : Serially C' D D' := by
  induction hr with
  | refl => exact .refl
  | tail _ hop ih =>
    obtain ⟨r, hr, hend, hc⟩ := hop
    exact ih.tail (.op r hr hend (hC r _ hc))

section Events

variable {p : Clients n}

/-- What holds of the data at the start and is kept by every commit holds all along. -/
theorem Deployment.Reaches.preserved (hr : D.Reaches req p) {P : Data → Prop} (h₀ : P D.data)
    (hs : ∀ hb e post h, p.state.history = hb ++ e :: post → Committed owner req hb e h →
      P e.before → P e.after) :
    (∀ e ∈ p.state.history, P e.before) ∧ P p.state.data := by
  have along (hb : List (Event n)) : ∀ post d, p.state.history = hb ++ post →
      Follows Event.before Event.after D.data hb d → P d := by
    induction hb using List.reverseRecOn with
    | nil =>
      rintro post d - rfl
      exact h₀
    | append_singleton hb e ih =>
      intro post d hh hf
      obtain ⟨m, hm, rfl, rfl⟩ := follows_append.mp hf
      have hh' : p.state.history = hb ++ e :: post := by simpa using hh
      have hb' := ih (e :: post) e.before hh' hm
      rcases (hr.inv.logged hb e post hh').unchanged_or_committed with ha | ⟨h, hc⟩
      · rw [ha]
        exact hb'
      · exact hs hb e post h hh' hc hb'
  constructor
  · intro e he
    obtain ⟨hb, post, hh⟩ := List.append_of_mem he
    have hf := hr.inv.follows
    rw [hh] at hf
    exact along hb _ e.before hh hf.split.1
  · exact along p.state.history [] p.state.data (by simp) hr.inv.follows

end Events

section Alone

variable {r : Request} {p : Clients 1} {hb post : List (Event 1)} {e : Event 1}

theorem own_alone (t : Fin 1) (h : List (Event 1)) : own t h = h := by
  refine List.filter_eq_self.mpr fun e _ => ?_
  exact decide_eq_true (Subsingleton.elim _ _)

/-- Nobody else closes the session that an operation has met open. -/
theorem SeenOpen.still_open (hr : D.Reaches (fun _ => r) p) (hh : p.state.history = hb ++ e :: post)
    {tableId k : Uuid} (hs : SeenOpen tableId k (own e.client hb)) :
    ∃ s, lookup k e.before.sessions = some s ∧ s.status = .opened := by
  rw [own_alone] at hs
  obtain ⟨l₁, x, l₂, rfl, hc, -, s, hs, -, ho⟩ := hs
  have hf := hr.inv.follows
  rw [hh] at hf
  have hx := hf.split.1.split.2
  have he : e.before = x.after := by
    refine hx.unchanged fun y hy => ?_
    obtain ⟨hb', -, hen⟩ := hr.entry (e := y) (by rw [hh]; simp [hy])
    refine hen.other ?_
    by_contra hcm
    have hmem : y ∈ commitsOf l₂ := List.mem_filter.mpr ⟨hy, by simpa using hcm⟩
    rw [hc] at hmem
    cases hmem
  exact ⟨s, he ▸ hs, ho⟩

/-- Nobody else adds items to a session while an operation takes it out of use. -/
theorem ItemsMet.items_alone (hr : D.Reaches (fun _ => r) p) (hh : p.state.history = hb ++ e :: post)
    {P : Stmt → Bool} {k : Uuid} {items : List OrderItem} (hm : ItemsMet P k items (own e.client hb)) :
    e.before.itemsOf k = items := by
  rw [own_alone] at hm
  obtain ⟨l₁, x, l₂, rfl, -, -, hx, rfl, hl₂⟩ := hm
  have hf := hr.inv.follows
  rw [hh] at hf
  have quiet (y : Event 1) (hy : y ∈ p.state.history) (hk : y.keeps = true) : y.after = y.before := by
    obtain ⟨hb', -, hen⟩ := hr.entry hy
    exact hen.other (Event.not_commit_of_keeps hk)
  have hlater : e.before = x.after :=
    hf.split.1.split.2.unchanged fun y hy => quiet y (by simp [hh, hy]) (hl₂ y hy).1
  rw [hlater, quiet x (by simp [hh]) hx]

end Alone

namespace Holding

variable {now : Timestamp} {d : Data} {i i' : OrderItem} {s : TableSession}

/-- Only the opening of a session adds one. -/
theorem session_new {h : Holding} (hd : d.Ok owner) (hv : h.Valid owner now d) (hc : h.Complete)
    (hs : s ∈ (d.overlay (h.writes now d)).sessions) (hn : lookup s.id d.sessions = none) :
    h = .opening s := by
  have hm : s ∈ (h.writes now d).sessions := by
    refine (mem_of_mem_overlay hs).resolve_right fun hm => ?_
    rw [hd.mem_sessions.mp hm] at hn
    cases hn
  have known {w : TableSession} (hw : lookup s.id d.sessions = some w) : h = .opening s := by
    rw [hn] at hw
    cases hw
  cases h with
  | opening w =>
    obtain rfl : s = w := by simpa [writes] using hm
    rfl
  | reopening w =>
    obtain rfl : s = w.reopen now := by simpa [writes] using hm
    exact known hv.1
  | leaving w items kind stage =>
    obtain rfl : s = kind.row now d w stage := by simpa [writes] using hm
    rw [Leave.row_id] at hn known
    exact known hv.1
  | moved i i' w =>
    obtain rfl : s = w.touch now := by simpa [writes] using hm
    exact known hv.2.2.1
  | ordered o items w at_ =>
    obtain rfl : s = w.touch at_ := by simpa [writes] using hm
    exact known hv.2.1
  | calling w c =>
    obtain rfl : s = w.touch now := by simpa [writes] using hm
    exact known hv.session
  | ordering o items => cases hm
  | acking c c' => cases hm
  | _ => exact absurd hc (by simp [Complete])

/-- The items of the session afterwards: one of them has moved. -/
theorem itemsOf_moved (hd : d.Ok owner) (hv : (moved i i' s).Valid owner now d) :
    (d.overlay ((moved i i' s).writes now d)).itemsOf s.id =
      (d.itemsOf s.id).map fun j => if j.id = i.id then i' else j := by
  obtain ⟨hl, hm, -, hin⟩ := hv
  have hi' : d.inSession s.id i' = true := by
    rw [Data.inSession_congr hm.orderId_eq]
    exact hin
  have hp : ∀ j ∈ d.items, ((d.overlay ((moved i i' s).writes now d)).inSession s.id ∘
      fun j => if j.id = i.id then i' else j) j = d.inSession s.id j := by
    intro j hj
    have hs : (d.overlay ((moved i i' s).writes now d)).inSession s.id = d.inSession s.id := by
      funext j
      simp [Data.inSession, writes]
    rw [Function.comp, hs]
    by_cases hid : j.id = i.id
    · obtain rfl := eq_of_key_eq hd.itemIds hj (mem_of_lookup hl) hid
      simp [hi', hin]
    · simp [hid]
  rw [Data.itemsOf, Data.overlay_items, show ((moved i i' s).writes now d).items = [i'] from rfl,
    overlay_row hl hm.id_eq, List.filter_map]
  exact congrArg _ (List.filter_congr hp)

/-- An order only adds items, none of them served. -/
theorem itemsOf_placed {h : Holding} {o : Order} {items : List OrderItem} (hp : h.Places o items)
    (hd : d.Ok owner) (hv : h.Valid owner now d) {k : Uuid} {j : OrderItem}
    (hj : j ∈ (d.overlay (h.writes now d)).itemsOf k) : j ∈ d.itemsOf k ∨ j.servedAt = none := by
  obtain ⟨hm, hin⟩ := Data.mem_itemsOf.mp hj
  rcases mem_of_mem_overlay hm with hm | hm
  · right
    rw [hp.writes_items] at hm
    have hpending := (hp.newOrder hv).pending j hm
    have hcol := ((hp.newOrder hv).columns j hm).servedAt
    rw [hpending] at hcol
    simpa using hcol
  · left
    have hfits := fits hd hv hp.complete
    rw [Data.inSession_overlay hd hfits (hd.itemOrder j hm)] at hin
    exact Data.mem_itemsOf.mpr ⟨hm, hin⟩

end Holding

section Schedules

/-- The answer of a request that is alone from `clock` on. -/
def Sys.serve (σ : Sys 1) (clock : Timestamp) (r : Request) : Clients 1 :=
  let out := (Sys.start 1 σ.catalog σ.data clock clock σ.nextUuid).alone r.handler
  ⟨out.2, fun _ => match out.1 with | .ok a => .ret a | .error e => .raise e⟩

/-- Serves one request after the other, each at its time. -/
def serveAll (check : Request → Clients 1 → Bool) : List (Timestamp × Request) → Sys 1 → Option (Sys 1)
  | [], σ => some σ
  | (clock, r) :: ops, σ =>
    if σ.clock ≤ clock ∧ check r (σ.serve clock r) then serveAll check ops (σ.serve clock r).state
    else none

theorem reachable_alone (owner : Uuid → Uuid) (σ : Sys 1) (a : Action Response) :
    (machine owner 1).Reachable ⟨σ, fun _ => a⟩ ⟨(σ.alone a).2, fun _ =>
      match (σ.alone a).1 with | .ok a => .ret a | .error e => .raise e⟩ := by
  have hexec (q : Stmt) (τ : Sys 1) : Exec 0 q τ (τ.perform 0 q).1 (τ.perform 0 q).2 := by
    refine .perform ?_
    cases q with
    | command c => simp [Sys.blocked, Sys.waitsFor, List.finRange_succ]
    | _ => rfl
  have hrun := Machine.reachable_run (M := machine owner 1) (t := 0) hexec a σ fun _ => a
  have hupd (b : Action Response) : Function.update (fun _ : Fin 1 => a) 0 b = fun _ => b := by
    funext t
    rw [Subsingleton.elim t 0, Function.update_self]
  rw [hupd, hupd] at hrun
  unfold Sys.alone
  generalize Prog.run (fun q τ => Sys.perform τ 0 q) a σ = out at hrun ⊢
  obtain ⟨res, τ⟩ := out
  cases res <;> exact hrun

/-- The schedule starts where the deployment does. -/
structure Sys.Continues (σ : Sys 1) (D : Deployment owner) : Prop where
  catalog : D.catalog = σ.catalog
  data : D.data = σ.data
  clock : D.clock = σ.clock
  nextUuid : D.nextUuid = σ.nextUuid

/-- One request served at its time is an operation. -/
theorem Sys.Continues.operates {C : Request → Clients 1 → Prop} {σ : Sys 1} (hσ : σ.Continues D)
    (clock : Timestamp) (hle : σ.clock ≤ clock) (r : Request) (hC : C r (σ.serve clock r)) :
    ∃ D' : Deployment owner, Operates C D D' ∧ (σ.serve clock r).state.Continues D' := by
  have htick : (machine owner 1).Step (D.start fun _ => r)
      ⟨Sys.start 1 σ.catalog σ.data clock clock σ.nextUuid, fun _ => r.handler⟩ := by
    rw [← hσ.clock] at hle
    rw [← hσ.catalog, ← hσ.data, ← hσ.nextUuid]
    exact .env (.tick clock clock hle)
  have hr : D.Reaches (fun _ => r) (σ.serve clock r) := .head htick (reachable_alone owner _ _)
  have hend : ((σ.serve clock r).threads 0).answer.isSome := by
    simp only [Sys.serve]
    split <;> rfl
  exact ⟨hr.next, .op r hr hend hC, rfl, rfl, rfl, rfl⟩

theorem serially_serveAll {check : Request → Clients 1 → Bool} {C : Request → Clients 1 → Prop}
    (hcheck : ∀ r p, check r p = true → C r p) (ops : List (Timestamp × Request)) {σ σ' : Sys 1}
    (hσ : σ.Continues D) (h : serveAll check ops σ = some σ') :
    ∃ D' : Deployment owner, Serially C D D' ∧ σ'.Continues D' := by
  induction ops generalizing D σ with
  | nil =>
    cases h
    exact ⟨D, .refl, hσ⟩
  | cons op ops ih =>
    obtain ⟨clock, r⟩ := op
    simp only [serveAll] at h
    split at h
    next hc =>
      obtain ⟨D₁, hop, hσ₁⟩ := hσ.operates clock hc.1 r (hcheck r _ hc.2)
      obtain ⟨D', hs, hσ'⟩ := ih hσ₁ h
      exact ⟨D', .head hop hs, hσ'⟩
    · cases h

/-- A schedule whose last state passes a test is a run of operations. -/
theorem exists_serially (D : Deployment owner) (check : Request → Clients 1 → Bool)
    {C : Request → Clients 1 → Prop} (hcheck : ∀ r p, check r p = true → C r p)
    (ops : List (Timestamp × Request)) (test : Sys 1 → Bool)
    (h : (serveAll check ops (D.initial 1)).any test = true) :
    ∃ (D' : Deployment owner) (σ : Sys 1), Serially C D D' ∧ σ.Continues D' ∧ test σ = true := by
  obtain ⟨σ, hσ, ht⟩ := (Option.any_eq_true _ _).mp h
  obtain ⟨D', hs, hσ'⟩ := serially_serveAll (D := D) hcheck ops ⟨rfl, rfl, rfl, rfl⟩ hσ
  exact ⟨D', σ, hs, hσ', ht⟩

end Schedules

end QOrder
