import QOrder.OrderRace
import QOrder.Tabs

/-! Every interleaving of the clients is a run of the ledger of tabs, in which each request
takes the actions it is meant for, and what a closed session's total has missed is read off. -/

namespace QOrder

open KeyedTable Concurrency TabLedger Refinement

variable {n : Nat} {owner : Uuid → Uuid} {req : Fin n → Request} {D : Deployment owner} {p : Clients n}

/-- Whose action on the tabs it is. Any request that needs a session may open one. -/
def Request.Acts (r : Request) : TabAction → Prop
  | .openTab _ _ => True
  | .order _ _ => ∃ qrToken body, r = .createOrder qrToken body
  | .deliver l _ _ => ∃ user, r = .setItemStatus user l .served
  | .takeBack l _ _ => ∃ user, r = .setItemStatus user l .pending
  | .void l => (∃ user reason, r = .cancelItemStaff user l reason) ∨
      ∃ qrToken reason, r = .cancelItemCustomer qrToken l reason
  | .settle t => ∃ user, r = .checkoutSession user t ∨ r = .restoreSession user t
  | .drop t => r = .runSweep ∨ r = .abandonSession t
  | .resume t => ∃ user, r = .restoreSession user t

section Events

variable {hb : List (Event n)} {e : Event n} {h : Holding} {c : TabAction}

theorem MoveOf.acts {l : List (Event n)} {i i' : OrderItem} {s : TableSession} {r : Request}
    (hm : MoveOf l i i' s r) (hc : i.action i' s.id = some c) : r.Acts c := by
  unfold OrderItem.action at hc
  cases r with
  | setItemStatus user itemId toStatus =>
    obtain ⟨-, rfl, -, hs, hn⟩ := hm
    cases hst : i'.status <;> rw [hst] at hc hs <;> cases hc <;> subst hs
    · exact ⟨user, rfl⟩
    · exact ⟨user, rfl⟩
    · exact absurd rfl hn
  | cancelItemStaff user itemId reason =>
    obtain ⟨-, rfl, -, hs⟩ := hm
    rw [hs] at hc
    cases hc
    exact .inl ⟨user, reason, rfl⟩
  | cancelItemCustomer qrToken itemId reason =>
    obtain ⟨rfl, -, hs, -, -⟩ := hm
    rw [hs] at hc
    cases hc
    exact .inr ⟨qrToken, reason, rfl⟩
  | _ => cases hm

theorem LeaveOf.acts {l : List (Event n)} {s : TableSession} {kind : Leave} {r : Request}
    (hl : LeaveOf l s kind r) : r.Acts (kind.action s.id) := by
  cases r with
  | checkoutSession user sessionId =>
    obtain ⟨-, rfl, rfl, -⟩ := hl
    exact ⟨user, .inl rfl⟩
  | restoreSession user sessionId =>
    obtain ⟨-, rfl, rfl, -⟩ := hl
    exact ⟨user, .inr rfl⟩
  | runSweep =>
    obtain ⟨rfl, -⟩ := hl
    exact .inl rfl
  | abandonSession sessionId =>
    obtain ⟨-, rfl, rfl⟩ := hl
    exact .inr rfl
  | _ => cases hl

theorem Justified.acts {l : List (Event n)} {r : Request} (hj : Justified l h r)
    (hc : h.action = some c) : r.Acts c := by
  cases h with
  | opening s =>
    cases hc
    trivial
  | reopening s =>
    cases hc
    cases r with
    | restoreSession user sessionId =>
      obtain ⟨-, rfl, -⟩ := hj
      exact ⟨user, rfl⟩
    | _ => cases hj
  | leaving s items kind stage =>
    cases hc
    exact hj.1.acts
  | moved i i' s => exact MoveOf.acts hj hc
  | ordering o items | ordered o items s at_ =>
    cases hc
    cases r with
    | createOrder qrToken body => exact ⟨qrToken, body, rfl⟩
    | _ => cases hj
  | _ => cases hc

/-- An event leaves the tabs alone or is one action of its client's request. -/
theorem Entry.tabs_step (he : Entry owner req hb e) : e.after.tabs = e.before.tabs ∨
    ∃ c, (req e.client).Acts c ∧ Step e.before.tabs c e.after.tabs := by
  rcases he.unchanged_or_committed with ha | ⟨h, hc⟩
  · exact .inl (by rw [ha])
  · have hstep := Holding.tabs_step hc.ok hc.valid hc.complete
    rw [← hc.after] at hstep
    cases ha : h.action with
    | none => exact .inl (hstep.1 ha)
    | some c => exact .inr ⟨c, hc.justified.acts ha, hstep.2 c ha⟩

/-- Whatever ends a tab holds its session as one that leaves. -/
theorem Entry.ends (he : Entry owner req hb e) {t : Uuid} (ht : e.before.tabs.Ends e.after.tabs t) :
    ∃ s items kind, s.id = t ∧ Committed owner req hb e (.leaving s items kind .dismissed) := by
  obtain ⟨a, a', ha, ha', hne, hrun⟩ := ht
  rcases he.unchanged_or_committed with hsame | ⟨h, hc⟩
  · rw [hsame, ha] at ha'
    cases ha'
    exact absurd rfl hne
  · obtain ⟨s, hs, rfl⟩ := Option.map_eq_some_iff.mp ha
    obtain ⟨s', hs', rfl⟩ := Option.map_eq_some_iff.mp ha'
    obtain ⟨s₁, hs₁, hst⟩ := hc.session hs
    obtain rfl := Option.some.inj (hs'.symm.trans hs₁)
    cases hst with
    | left items kind => exact ⟨s, items, kind, key_of_lookup hs, hc⟩
    | reopened => exact absurd rfl hrun
    | _ => exact absurd rfl hne

end Events

section Runs

/-- The actions on the tabs behind the events of a history. -/
abbrev Enacts (req : Fin n → Request) (history : List (Event n)) (actions : List TabAction) : Prop :=
  Explained Step (fun e : Event n => e.before.tabs) (fun e => e.after.tabs)
    (fun e => (req e.client).Acts) history actions

theorem Deployment.Reaches.enacts (hr : D.Reaches req p) : ∃ actions, Enacts req p.state.history actions := by
  refine exists_explained fun e he => ?_
  obtain ⟨hb, -, hen⟩ := hr.entry he
  exact hen.tabs_step

theorem Enacts.run {actions : List TabAction} (h : Enacts req p.state.history actions)
    (hr : D.Reaches req p) : Refinement.Run Step D.data.tabs actions p.state.data.tabs :=
  Explained.run h hr.inv.follows

/-- When a tab has ended, just the lines of orders that slipped in still wait on it. -/
theorem Deployment.Reaches.waits_iff (hr : D.Reaches req p) {hb post : List (Event n)} {e : Event n}
    (hh : p.state.history = hb ++ e :: post) {t : Uuid} (ht : e.before.tabs.Ends e.after.tabs t) (l : Uuid) :
    e.after.tabs.Waits t l ↔ Slipped e.client (Stmt.takesItems t) t l hb := by
  obtain ⟨s, items, kind, rfl, hc⟩ := (hr.inv.logged hb e post hh).ends ht
  obtain ⟨late, hs, hp⟩ := hc.valid.2.2
  have hids := hc.ok.itemsOf_ids (k := s.id)
  rw [slipped_iff hr hh hc.justified.2 hs, hc.after, Ledger.Waits, charges_leaving hc.ok hs, Ledger.strike]
  constructor
  · rintro ⟨x, hx⟩
    split at hx
    · rename_i hlate
      obtain ⟨i, hi, hid⟩ := List.mem_map.mp hlate
      exact ⟨i, hi, hid⟩
    · obtain ⟨c, -, hstruck⟩ := Option.map_eq_some_iff.mp hx
      unfold Charge.strike at hstruck
      split at hstruck
      · cases congrArg Charge.mark hstruck
      · rename_i hn
        exact absurd ⟨congrArg Charge.tab hstruck, congrArg Charge.mark hstruck⟩ hn
  · rintro ⟨i, hi, rfl⟩
    obtain ⟨hm, hin⟩ := Data.mem_itemsOf.mp (hs ▸ List.mem_append_right items hi)
    refine ⟨i.amount, ?_⟩
    rw [if_pos (List.mem_map_of_mem hi), charge_of_inSession hc.ok (hc.ok.mem_items.mp hm) hin, hp i hi]
    rfl

/-- Every interleaving refines the ledger of tabs. A tab that ends has every waiting line struck out
except those that an order without its session's lock has added unnoticed. -/
theorem tabs_refined (hr : D.Reaches req p) : ∃ actions, Enacts req p.state.history actions ∧
    Refinement.Run Step D.data.tabs actions p.state.data.tabs ∧
    ∀ hb e post, p.state.history = hb ++ e :: post → ∀ t, e.before.tabs.Ends e.after.tabs t →
      ∀ l, e.after.tabs.Waits t l ↔ Slipped e.client (Stmt.takesItems t) t l hb := by
  obtain ⟨actions, ha⟩ := hr.enacts
  exact ⟨actions, ha, ha.run hr, fun hb e post hh t ht l => hr.waits_iff hh ht l⟩

theorem settledAt_of_closed {d : Data} {s : TableSession} {total : Money} (hl : lookup s.id d.sessions = some s)
    (hs : s.status = .closed) (ht : s.totalAmount = some total) : d.tabs.SettledAt s.id total := by
  refine ⟨_, account_held hl, ?_⟩
  simp [TableSession.account, TableSession.phase, hs, ht]

theorem closed_of_settledAt {d : Data} {k : Uuid} {total : Money} (h : d.tabs.SettledAt k total) :
    ∃ s, lookup k d.sessions = some s ∧ s.status = .closed := by
  obtain ⟨a, ha, hp⟩ := h
  obtain ⟨s, hs, rfl⟩ := Option.map_eq_some_iff.mp ha
  refine ⟨s, hs, ?_⟩
  have hp : s.phase = .settled total := hp
  cases hst : s.status <;> simp [TableSession.phase, hst] at hp ⊢

theorem due_tabs {d : Data} {s : TableSession} (hl : lookup s.id d.sessions = some s) :
    d.tabs.due s.id = servedTotal (d.itemsOf s.id) := by
  rw [due_of_account (account_held hl)]
  rfl

/-- What the served items of a closed session come to is its total and what was served or taken
back after it was settled. -/
theorem totals_accounted (hr : D.Reaches req p) : ∃ actions, Enacts req p.state.history actions ∧
    ∀ s ∈ p.state.data.sessions, s.status = .closed →
      (∀ s₀ ∈ D.data.sessions, s₀.id = s.id → s₀.status ≠ .closed) →
      ∃ total pre post, s.totalAmount = some total ∧ actions = pre ++ .settle s.id :: post ∧
        servedTotal (p.state.data.itemsOf s.id) = total + (post.map (Action.moves s.id)).sum := by
  obtain ⟨actions, ha⟩ := hr.enacts
  have hrun := ha.run hr
  refine ⟨actions, ha, fun s hs hcl h₀ => ?_⟩
  have hl := hr.inv.ok.mem_sessions.mp hs
  have hcol := hr.inv.ok.sessionColumns s hs
  rw [TableSession.Columns, hcl] at hcol
  obtain ⟨total, ht⟩ := Option.isSome_iff_exists.mp hcol.2
  have hstart : ¬ ∃ x, D.data.tabs.SettledAt s.id x := by
    rintro ⟨x, hx⟩
    obtain ⟨s₀, hs₀, hcl₀⟩ := closed_of_settledAt hx
    exact h₀ s₀ (mem_of_lookup hs₀) (key_of_lookup hs₀) hcl₀
  obtain ⟨pre, post, hsplit, hdue⟩ := settled_run hrun hstart (settledAt_of_closed hl hcl ht)
  rw [due_tabs hl] at hdue
  exact ⟨total, pre, post, ht, hsplit, hdue⟩

def cafeCorrected : Fin 4 → Request
  | 0 => cafeOrder
  | 1 => .setItemStatus cafeStaff 12 .served
  | 2 => .checkoutSession cafeStaff 10
  | 3 => .setItemStatus cafeStaff 12 .pending

/-- The dish is taken back after the checkout, whose total keeps its price. -/
theorem cafe_corrected : ∃ p, cafe.Reaches cafeCorrected p ∧ ∃ s ∈ p.state.data.sessions,
    s.status = .closed ∧ s.totalAmount ≠ some (servedTotal (p.state.data.itemsOf s.id)) := by
  obtain ⟨p, hr, hc⟩ := cafe.reaches_play cafeCorrected
    (fun p => p.state.data.sessions.any fun s => s.status = .closed ∧
      s.totalAmount ≠ some (servedTotal (p.state.data.itemsOf s.id)))
    (steps 0 15 ++ steps 1 4 ++ steps 2 10 ++ steps 3 4) (by decide)
  obtain ⟨s, hs, hc⟩ := List.any_eq_true.mp hc
  obtain ⟨hcl, hne⟩ := of_decide_eq_true hc
  exact ⟨p, hr, s, hs, hcl, hne⟩

theorem ends_of_closed {d d' : Data} {k : Uuid} (hs : d.statusOf k = some .opened)
    (hs' : d'.statusOf k = some .closed) : d.tabs.Ends d'.tabs k := by
  obtain ⟨s, hl, ho⟩ := Option.map_eq_some_iff.mp hs
  obtain ⟨s', hl', hc⟩ := Option.map_eq_some_iff.mp hs'
  have hp : s.phase = .running := by simp [TableSession.phase, ho]
  have hp' : s'.phase = .settled (s'.totalAmount.getD 0) := by simp [TableSession.phase, hc]
  refine ⟨_, _, by rw [tabs_accounts, hl]; rfl, by rw [tabs_accounts, hl']; rfl, ?_, ?_⟩
  · show s'.phase ≠ s.phase
    rw [hp, hp']
    exact fun h => by cases h
  · show s'.phase ≠ .running
    rw [hp']
    exact fun h => by cases h

/-- The guest's order slips in while the table is checked out, and its dish waits on the settled tab. -/
theorem tabs_refined_cafe : ∃ p, cafe.Reaches cafeRace p ∧ ∃ actions, Enacts cafeRace p.state.history actions ∧
    Refinement.Run Step cafe.data.tabs actions p.state.data.tabs ∧
    ∃ hb e post, p.state.history = hb ++ e :: post ∧ e.before.tabs.Ends e.after.tabs 10 ∧
      ∃ l, Slipped e.client (Stmt.takesItems 10) 10 l hb := by
  obtain ⟨p, hr, hc⟩ := cafe.reaches_play cafeRace
    (fun p => p.state.history.any fun e => decide (e.before.statusOf 10 = some .opened) &&
      decide (e.after.statusOf 10 = some .closed) &&
      (e.after.itemsOf 10).any fun i => i.status.mark == .waiting)
    (steps 0 10 ++ steps 1 6 ++ steps 0 1 ++ steps 1 1) (by decide +kernel)
  obtain ⟨e, he, hc⟩ := List.any_eq_true.mp hc
  simp only [Bool.and_eq_true, decide_eq_true_eq] at hc
  obtain ⟨⟨hs, hs'⟩, hw⟩ := hc
  obtain ⟨i, hi, hmark⟩ := List.any_eq_true.mp hw
  obtain ⟨hb, post, hh⟩ := List.append_of_mem he
  obtain ⟨hi, hin⟩ := Data.mem_itemsOf.mp hi
  have hok := (hr.inv.logged hb e post hh).after_ok
  have hends := ends_of_closed hs hs'
  obtain ⟨actions, ha, hrun, hwaits⟩ := tabs_refined hr
  refine ⟨p, hr, actions, ha, hrun, hb, e, post, hh, hends, i.id, (hwaits hb e post hh 10 hends i.id).mp ?_⟩
  exact ⟨i.amount, (charge_of_inSession hok (hok.mem_items.mp hi) hin).trans (by rw [eq_of_beq hmark])⟩

theorem totals_accounted_cafe : ∃ p, cafe.Reaches cafeCorrected p ∧ ∃ s ∈ p.state.data.sessions,
    ∃ total pre post, s.totalAmount = some total ∧
      Enacts cafeCorrected p.state.history (pre ++ .settle s.id :: post) ∧
      servedTotal (p.state.data.itemsOf s.id) = total + (post.map (Action.moves s.id)).sum ∧
      post ≠ [] := by
  obtain ⟨p, hr, s, hs, hcl, hne⟩ := cafe_corrected
  obtain ⟨actions, ha, hall⟩ := totals_accounted hr
  obtain ⟨total, pre, post, ht, rfl, hsum⟩ := hall s hs hcl (by simp [cafe])
  refine ⟨p, hr, s, hs, total, pre, post, ht, ha, hsum, ?_⟩
  rintro rfl
  refine hne (ht.trans (congrArg some ?_))
  simpa using hsum.symm

end Runs

end QOrder
