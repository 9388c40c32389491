import QOrder.Effects
import QOrder.ServiceStatements
import QOrder.Snapshots

/-! Edits of the menu. Only an order reads the menu, so a stretch of a run without orders is
the same run whether or not the menu is edited in it. -/

namespace QOrder

open KeyedTable Concurrency Concurrency.Prog QOrder.Action

variable {n : Nat} {owner : Uuid → Uuid} {req : Fin n → Request} {α : Type}

/-- What is chosen at one step of a run. -/
inductive Act (n : Nat)
  | perform (t : Fin n)
  | kill (t : Fin n)
  | tick (clock appClock : Timestamp)
  | editMenu (menuItems : List MenuItem)
  | edit (restaurants : List Restaurant) (settings : List RestaurantSettings) (tables : List Table)

namespace Act

def client : Act n → Option (Fin n)
  | perform t | kill t => some t
  | _ => none

def isMenuEdit : Act n → Bool
  | editMenu _ => true
  | _ => false

def apply (owner : Uuid → Uuid) (p : Clients n) : Act n → Option (Clients n)
  | perform t =>
    match p.threads t with
    | .stmt q k =>
      if p.state.blocked t q then none
      else some ⟨(p.state.perform t q).2, Function.update p.threads t (k (p.state.perform t q).1)⟩
    | _ => none
  | kill t =>
    match p.threads t with
    | .stmt q k =>
      if q.isCommand then some ⟨p.state.kill t q, Function.update p.threads t (k (.error .operational))⟩
      else none
    | _ => none
  | tick clock appClock =>
    if p.state.clock ≤ clock then some ⟨{ p.state with clock, appClock }, p.threads⟩ else none
  | editMenu menuItems =>
    some ⟨{ p.state with catalog := { p.state.catalog with menuItems } }, p.threads⟩
  | edit restaurants settings tables =>
    if ∀ t ∈ tables, t.restaurantId = owner t.id then
      some ⟨{ p.state with catalog := { p.state.catalog with restaurants, settings, tables } }, p.threads⟩
    else none

end Act

def replay (owner : Uuid → Uuid) : List (Act n) → Clients n → Option (Clients n)
  | [], p => some p
  | x :: xs, p => (x.apply owner p).bind (replay owner xs)

theorem replay_append {xs ys : List (Act n)} {p : Clients n} :
    replay owner (xs ++ ys) p = (replay owner xs p).bind (replay owner ys) := by
  induction xs generalizing p with
  | nil => rfl
  | cons x xs ih => simp only [List.cons_append, replay, Option.bind_assoc, ih]

section Replay

variable {D : Deployment owner} {p p' : Clients n} {x : Act n}

theorem Act.step (ho : p.state.catalog.Owned owner) (h : x.apply owner p = some p') :
    (machine owner n).Step p p' := by
  cases x with
  | perform t =>
    simp only [apply] at h
    split at h
    next q k hp =>
      split at h
      · cases h
      next hb =>
        cases h
        exact .exec hp (.perform (by simpa using hb))
    · cases h
  | kill t =>
    simp only [apply] at h
    split at h
    next q k hp =>
      split at h
      next hq =>
        cases h
        exact .exec hp (.kill hq)
      · cases h
    · cases h
  | tick clock appClock =>
    simp only [apply] at h
    split at h
    next hle =>
      cases h
      exact .env (.tick clock appClock hle)
    · cases h
  | editMenu menuItems =>
    cases h
    exact .env (.edit _ ho)
  | edit restaurants settings tables =>
    simp only [apply] at h
    split at h
    next hown =>
      cases h
      exact .env (.edit _ hown)
    · cases h

/-- Every step of a run is one choice, or two where the whole catalog is edited at once. -/
theorem replay_of_step (h : (machine owner n).Step p p') : ∃ xs, replay owner xs p = some p' := by
  cases h with
  | @exec t q k r σ hp hx =>
    cases hx with
    | perform hb => exact ⟨[.perform t], by simp [replay, Act.apply, hp, hb]⟩
    | kill hq => exact ⟨[.kill t], by simp [replay, Act.apply, hp, hq]⟩
  | env he =>
    cases he with
    | tick clock appClock hle => exact ⟨[.tick clock appClock], by simp [replay, Act.apply, hle]⟩
    | edit catalog ho =>
      refine ⟨[.edit catalog.restaurants catalog.settings catalog.tables, .editMenu catalog.menuItems], ?_⟩
      have hown : ∀ t ∈ catalog.tables, t.restaurantId = owner t.id := ho
      rw [replay, Act.apply, if_pos hown]
      rfl

theorem replay_of_reachable (h : (machine owner n).Reachable p p') :
    ∃ xs, replay owner xs p = some p' := by
  induction h with
  | refl => exact ⟨[], rfl⟩
  | tail _ hs ih =>
    obtain ⟨xs, hxs⟩ := ih
    obtain ⟨ys, hys⟩ := replay_of_step hs
    exact ⟨xs ++ ys, by rw [replay_append, hxs, Option.bind_some, hys]⟩

end Replay

section Forget

variable {D : Deployment owner} {p p' q : Clients n} {σ : Sys n} {t : Fin n}

def Catalog.forgetMenu (c : Catalog) : Catalog := { c with menuItems := [] }

def Event.forgetMenu (e : Event n) : Event n := { e with catalog := e.catalog.forgetMenu }

/-- The system without its menu, and without what its history says of the menu. -/
def Sys.forgetMenu (σ : Sys n) : Sys n :=
  { σ with catalog := σ.catalog.forgetMenu, history := σ.history.map Event.forgetMenu }

def forgetMenu (p : Clients n) : Clients n := ⟨p.state.forgetMenu, p.threads⟩

/-- The statement does not read the menu. -/
def Stmt.MenuFree : Stmt → Prop
  | query (.menuItem _ _) => False
  | _ => True

abbrev MenuFree (p : Action α) : Prop := p.Keeps Stmt.MenuFree fun _ => True

theorem Query.eval_forgetMenu {q : Query} (hq : (Stmt.query q).MenuFree) (ctx : Ctx) (c : Catalog)
    (d : Data) : q.eval ctx c.forgetMenu d = q.eval ctx c d := by
  cases q with
  | menuItem id restaurantId => exact hq.elim
  | _ => rfl

theorem Sys.answer_forgetMenu {q : Stmt} (hq : q.MenuFree) :
    σ.forgetMenu.answer t q = ((σ.answer t q).1, (σ.answer t q).2.forgetMenu) := by
  cases q with
  | query q =>
    have he := Query.eval_forgetMenu hq (σ.ctx t) σ.catalog (σ.view t)
    exact congrArg (fun r => (Except.ok r, (σ.begin_ t).forgetMenu)) he
  | command c =>
    have hv : c.violation (σ.forgetMenu.ctx t) (σ.forgetMenu.view t) =
        c.violation (σ.ctx t) (σ.view t) := rfl
    simp only [answer, hv]
    cases c.violation (σ.ctx t) (σ.view t) <;> rfl
  | _ => rfl

theorem Sys.record_forgetMenu {q : Stmt} (r : Except DbError q.Resp) (σ' : Sys n) :
    σ.forgetMenu.record t q r σ'.forgetMenu = (σ.record t q r σ').forgetMenu := by
  simp only [record, forgetMenu, List.map_append, List.map_singleton]
  rfl

theorem Sys.perform_forgetMenu {q : Stmt} (hq : q.MenuFree) :
    σ.forgetMenu.perform t q = ((σ.perform t q).1, (σ.perform t q).2.forgetMenu) := by
  rw [perform, answer_forgetMenu hq, perform, record_forgetMenu]

theorem Sys.kill_forgetMenu {q : Stmt} : σ.forgetMenu.kill t q = (σ.kill t q).forgetMenu :=
  record_forgetMenu (.error .operational) (σ.abort t)

theorem Sys.blocked_forgetMenu {q : Stmt} : σ.forgetMenu.blocked t q = σ.blocked t q := by
  cases q <;> rfl

/-- A choice leads to the same state, whatever the menu is. -/
theorem Act.apply_forgetMenu {x : Act n} (hx : x.isMenuEdit = false)
    (hfree : ∀ t ∈ x.client, MenuFree (p.threads t)) :
    x.apply owner (QOrder.forgetMenu p) = (x.apply owner p).map QOrder.forgetMenu := by
  cases x with
  | perform t =>
    have ht := hfree t rfl
    cases hp : p.threads t with
    | stmt q k =>
      rw [hp] at ht
      have hthreads : (QOrder.forgetMenu p).threads t = .stmt q k := hp
      have hb : (QOrder.forgetMenu p).state.blocked t q = p.state.blocked t q := Sys.blocked_forgetMenu
      have hperform : (QOrder.forgetMenu p).state.perform t q = _ := Sys.perform_forgetMenu ht.1
      simp only [apply, hthreads, hp, hb, hperform]
      cases p.state.blocked t q <;> rfl
    | ret a | raise e =>
      have hthreads : (QOrder.forgetMenu p).threads t = p.threads t := rfl
      simp only [apply, hthreads, hp, Option.map_none]
  | kill t =>
    cases hp : p.threads t with
    | stmt q k =>
      have hthreads : (QOrder.forgetMenu p).threads t = .stmt q k := hp
      have hkill : (QOrder.forgetMenu p).state.kill t q = _ := Sys.kill_forgetMenu
      simp only [apply, hthreads, hp, hkill]
      cases q.isCommand <;> rfl
    | ret a | raise e =>
      have hthreads : (QOrder.forgetMenu p).threads t = p.threads t := rfl
      simp only [apply, hthreads, hp, Option.map_none]
  | tick clock appClock =>
    have hclock : (QOrder.forgetMenu p).state.clock = p.state.clock := rfl
    simp only [apply, hclock]
    split <;> rfl
  | editMenu menuItems => cases hx
  | edit restaurants settings tables =>
    simp only [apply]
    split <;> rfl

end Forget

section Free

variable {D : Deployment owner} {p p' q : Clients n} {t : Fin n}

theorem Bare.menuFree {a : Action α} (h : Bare a) : MenuFree a := by
  refine Keeps.mono h fun q hq => ?_
  cases q with
  | publish _ _ => trivial
  | query q =>
    cases q with
    | menuItem _ _ => exact hq
    | _ => trivial
  | _ => trivial

theorem menuFree_query {q : Query} (hq : (Stmt.query q).Bare) : MenuFree (query q) :=
  (bare_query hq).menuFree

theorem menuFree_publish (kitchen session : Channel) (event : RealtimeEvent) :
    MenuFree (do publish kitchen event; publish session event) :=
  Keeps.bind (.call trivial fun _ => trivial) fun _ => .call trivial fun _ => trivial

theorem menuFree_publishUpdated (restaurantId : Uuid) (item : OrderItem) (event : RealtimeEvent) :
    MenuFree (Kitchen.publishUpdated restaurantId item event) :=
  (menuFree_query (by trivial)).bind fun _ => (bare_scalarOne _).menuFree.bind fun _ => menuFree_publish ..

theorem menuFree_publishRestored (restaurantId sessionId : Uuid) (result : SessionService.RestoreResult) :
    MenuFree (StaffTables.publishRestored restaurantId sessionId result) := by
  unfold StaffTables.publishRestored
  cases result.action <;> exact menuFree_publish ..

theorem menuFree_cancelItemCustomer (qrToken : String) (itemId : Uuid) (reason : Option String) :
    MenuFree (Customer.cancelItemCustomer qrToken itemId reason) := by
  refine (bare_resolveTable _).menuFree.bind fun found => (bare_getOrOpen ..).menuFree.bind fun opened => ?_
  refine (bare_read ..).menuFree.bind fun rid => (menuFree_query (by trivial)).bind fun known => ?_
  cases known with
  | false => trivial
  | true =>
    refine (bare_updateItem _ _).translate.menuFree.bind fun item => ?_
    exact (menuFree_publish ..).bind fun _ => trivial

theorem menuFree_callStaff (qrToken : String) : MenuFree (Customer.callStaff qrToken) := by
  refine (bare_resolveTable _).menuFree.bind fun found => (bare_getOrOpen ..).menuFree.bind fun opened => ?_
  refine (bare_read ..).menuFree.bind fun tableId => (bare_getCooldown _).menuFree.bind fun cooldown => ?_
  refine (menuFree_query (by trivial)).bind fun recent => ?_
  cases recent with
  | true => trivial
  | false =>
    refine (bare_insertCall ..).menuFree.bind fun call => ?_
    exact (menuFree_publish ..).bind fun _ => trivial

theorem menuFree_setItemStatus (user : TokenPayload) (itemId : Uuid) (toStatus : OrderItemStatus) :
    MenuFree (Kitchen.setItemStatus user itemId toStatus) := by
  refine (menuFree_query (by trivial)).bind fun known => ?_
  cases known with
  | false => trivial
  | true =>
    refine (bare_setStatus ..).translate.menuFree.bind fun item => ?_
    exact (menuFree_publishUpdated ..).bind fun _ => trivial

theorem menuFree_cancelItemStaff (user : TokenPayload) (itemId : Uuid) (reason : Option String) :
    MenuFree (Kitchen.cancelItemStaff user itemId reason) := by
  refine (menuFree_query (by trivial)).bind fun known => ?_
  cases known with
  | false => trivial
  | true =>
    refine (bare_updateItem _ _).translate.menuFree.bind fun item => ?_
    exact (menuFree_publishUpdated ..).bind fun _ => trivial

theorem menuFree_ackStaffCall (user : TokenPayload) (callId : Uuid) :
    MenuFree (Kitchen.ackStaffCall user callId) := by
  have hack : MenuFree (StaffCallService.ack callId user.sub user.restaurantId) := by
    refine (menuFree_query (by trivial)).bind fun row => ?_
    cases row with
    | none => trivial
    | some call =>
      simp only
      split
      · trivial
      · refine (bare_acknowledge ..).menuFree.bind fun call => ?_
        exact (menuFree_publish ..).bind fun _ => trivial
  exact hack.tryCatch fun _ _ => trivial

theorem menuFree_checkoutSession (user : TokenPayload) (sessionId : Uuid) :
    MenuFree (StaffTables.checkoutSession user sessionId) := by
  refine (menuFree_query (by trivial)).bind fun row => ?_
  cases row with
  | none => trivial
  | some tableSession =>
    refine (bare_checkout ..).menuFree.bind fun result => ?_
    cases result with
    | none => trivial
    | some result => exact (menuFree_publish ..).bind fun _ => trivial

theorem menuFree_restoreSession (user : TokenPayload) (sessionId : Uuid) :
    MenuFree (StaffTables.restoreSession user sessionId) := by
  refine (bare_restore ..).translate.menuFree.bind fun result => ?_
  cases result with
  | none => trivial
  | some result => exact (menuFree_publishRestored ..).bind fun _ => trivial

theorem menuFree_abandonSession (sessionId restaurantId : Uuid) :
    MenuFree (Scheduler.abandonSession sessionId restaurantId) := by
  refine (bare_command _).menuFree.bind fun rows => ?_
  cases rows.sessions.head? with
  | none => trivial
  | some _ =>
    refine (bare_command _).menuFree.bind fun _ => Keeps.bind ?_ fun _ => ?_
    · exact (bare_command _).menuFree.bind fun _ => trivial
    · exact bare_commit.menuFree.bind fun _ => menuFree_publish ..

theorem menuFree_sweepRows (rows : List StaleSession) : MenuFree (Scheduler.sweepRows rows) := by
  induction rows with
  | nil => trivial
  | cons row rows ih =>
    refine Keeps.bind ?_ fun _ => ih
    exact (menuFree_abandonSession ..).tryCatch fun _ _ => bare_rollback.menuFree

/-- Only an order reads the menu. -/
theorem Request.menuFree {r : Request} (hr : r.isCreateOrder = false) : MenuFree r.handler := by
  cases r with
  | createOrder qrToken body => cases hr
  | getSessionSnapshot qrToken => exact (bare_getSessionSnapshot _).menuFree.bind fun _ => trivial
  | cancelItemCustomer qrToken itemId reason => exact (menuFree_cancelItemCustomer ..).bind fun _ => trivial
  | callStaff qrToken => exact (menuFree_callStaff _).bind fun _ => trivial
  | openTable user tableId => exact (bare_openTable ..).menuFree.bind fun _ => trivial
  | setItemStatus user itemId toStatus => exact (menuFree_setItemStatus ..).bind fun _ => trivial
  | cancelItemStaff user itemId reason => exact (menuFree_cancelItemStaff ..).bind fun _ => trivial
  | ackStaffCall user callId => exact (menuFree_ackStaffCall ..).bind fun _ => trivial
  | checkoutSession user sessionId => exact (menuFree_checkoutSession ..).bind fun _ => trivial
  | restoreSession user sessionId => exact (menuFree_restoreSession ..).bind fun _ => trivial
  | wsCustomer qrToken => exact (bare_wsCustomer _).menuFree.bind fun _ => trivial
  | runSweep =>
    refine Keeps.bind ((menuFree_query (by trivial)).bind fun rows => ?_) fun _ => trivial
    cases rows with
    | error e => trivial
    | ok rows => exact menuFree_sweepRows rows
  | abandonSession sessionId =>
    refine (menuFree_query (by trivial)).bind fun row => ?_
    cases row with
    | none => trivial
    | some row => exact (menuFree_abandonSession ..).bind fun _ => trivial

theorem Deployment.Reaches.menuFree (hr : D.Reaches req p) (ht : (req t).isCreateOrder = false) :
    MenuFree (p.threads t) := by
  induction hr with
  | refl => exact (req t).menuFree ht
  | @tail p₁ p₂ _ hs ih =>
    cases hs with
    | env he => exact ih
    | @exec u q k r σ hp hx =>
      by_cases hu : t = u
      · subst hu
        rw [hp] at ih
        simp only [Function.update_self]
        exact ih.2 r
      · simp only [Function.update_of_ne hu]
        exact ih

end Free

/-- A stretch without orders, replayed without its menu edits. -/
theorem replay_without_edits {D : Deployment owner} {p p' q : Clients n} (hr : D.Reaches req p)
    {xs : List (Act n)} (hxs : replay owner xs p = some p')
    (hno : ∀ x ∈ xs, ∀ t ∈ x.client, (req t).isCreateOrder = false) (hq : forgetMenu q = forgetMenu p) :
    ∃ q', replay owner (xs.filter fun x => !x.isMenuEdit) q = some q' ∧ forgetMenu q' = forgetMenu p' := by
  induction xs generalizing p q with
  | nil =>
    cases hxs
    exact ⟨q, rfl, hq⟩
  | cons x xs ih =>
    obtain ⟨m, hm, hxs⟩ := Option.bind_eq_some_iff.mp hxs
    have hr' : D.Reaches req m := hr.tail (x.step hr.inv.owned hm)
    have hno' : ∀ x ∈ xs, ∀ t ∈ x.client, (req t).isCreateOrder = false :=
      fun x hx => hno x (List.mem_cons_of_mem _ hx)
    cases hx : x.isMenuEdit with
    | true =>
      rw [List.filter_cons_of_neg (by simp [hx])]
      refine ih hr' hxs hno' (hq.trans ?_)
      cases x with
      | editMenu menuItems =>
        have hm' : (Act.editMenu menuItems).apply owner p = some m := hm
        cases hm'
        rfl
      | _ => cases hx
    | false =>
      rw [List.filter_cons_of_pos (by simp [hx])]
      have hfree : ∀ t ∈ x.client, MenuFree (p.threads t) := fun t ht =>
        hr.menuFree (hno x List.mem_cons_self t ht)
      have hthreads : q.threads = p.threads := by
        injection hq
      have hp : x.apply owner (forgetMenu p) = (x.apply owner p).map forgetMenu :=
        Act.apply_forgetMenu hx hfree
      have hq' : x.apply owner (forgetMenu q) = (x.apply owner q).map forgetMenu :=
        Act.apply_forgetMenu hx (hthreads ▸ hfree)
      rw [hq, hp, hm] at hq'
      obtain ⟨m', hm', he⟩ := Option.map_eq_some_iff.mp hq'.symm
      obtain ⟨q', hrun, he'⟩ := ih hr' hxs hno' he
      exact ⟨q', by rw [replay, hm', Option.bind_some, hrun], he'⟩

/-- The same stretch without the menu edits in it: every client has been answered the same,
and the tables of the ordering flow and the kitchen's board are the same. And every item has
the values that it was created with. -/
theorem menu_edits {D : Deployment owner} {p : Clients n} (hr : D.Reaches req p) :
    (∀ p', (machine owner n).Reachable p p' → ∃ xs, replay owner xs p = some p') ∧
    (∀ xs p', replay owner xs p = some p' →
      (∀ x ∈ xs, ∀ t ∈ x.client, (req t).isCreateOrder = false) →
        ∃ q, replay owner (xs.filter fun x => !x.isMenuEdit) p = some q ∧
          q.threads = p'.threads ∧ q.state.forgetMenu = p'.state.forgetMenu ∧
          q.state.data = p'.state.data ∧ ∀ restaurantId,
            Kitchen.getKitchenBoard q.state.data restaurantId =
              Kitchen.getKitchenBoard p'.state.data restaurantId) ∧
    ∀ i ∈ p.state.data.items, (∃ i₀ ∈ created D.data p.state.history, i₀.id = i.id) ∧
      ∀ i₀ ∈ created D.data p.state.history, i₀.id = i.id → i.snapshot = i₀.snapshot := by
  refine ⟨fun p' => replay_of_reachable, fun xs p' hxs hno => ?_, fun i => hr.made.snapshot⟩
  obtain ⟨q, hq, he⟩ := replay_without_edits hr hxs hno rfl
  injection he with hstate hthreads
  have hforget : q.state.forgetMenu.data = p'.state.forgetMenu.data := congrArg Sys.data hstate
  have hdata : q.state.data = p'.state.data := hforget
  exact ⟨q, hq, hthreads, hstate, hdata, fun _ => by rw [hdata]⟩

/-- A table is checked out as if the menu had not been emptied. -/
theorem menu_edits_cafe : ∃ q, replay (fun _ => 1) (List.replicate 11 (.perform 0))
    (cafeOrdered.start fun _ : Fin 1 => .checkoutSession cafeStaff 10) = some q ∧
      q.state.data.statusOf 10 = some .closed := by
  have hrun : (replay (fun _ => 1) (.editMenu [] :: List.replicate 11 (.perform 0))
      (cafeOrdered.start fun _ : Fin 1 => .checkoutSession cafeStaff 10)).any
        (fun p => decide (p.state.data.statusOf 10 = some .closed)) = true := by
    decide +kernel
  obtain ⟨p', hp', hclosed⟩ := (Option.any_eq_true _ _).mp hrun
  have hr : cafeOrdered.Reaches (fun _ : Fin 1 => .checkoutSession cafeStaff 10)
      (cafeOrdered.start fun _ : Fin 1 => .checkoutSession cafeStaff 10) := .refl
  obtain ⟨q, hq, -, -, hdata, -⟩ := (menu_edits hr).2.1 _ _ hp' fun _ _ _ _ => rfl
  refine ⟨q, hq, ?_⟩
  rw [hdata]
  exact of_decide_eq_true hclosed

end QOrder
