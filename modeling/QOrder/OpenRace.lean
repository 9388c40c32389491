import QOrder.CustomerSteps

/-! Guests at a table without an open session: one of them opens it. The others are
served as if it had been open, unless they lose the insert to the first. -/

namespace QOrder

open KeyedTable Concurrency

variable {n : Nat} {owner : Uuid → Uuid} {req : Fin n → Request} {D : Deployment owner} {d₀ : Data}
  {p : Clients n} {t : Fin n} {l l' : List (Event n)} {e : Event n} {α β : Type}
  {qrToken : String} {tableId restaurantId itemId k : Uuid}

def Request.token : Request → Option String
  | .createOrder qrToken _ | .cancelItemCustomer qrToken _ _ | .callStaff qrToken => some qrToken
  | _ => none

abbrev Request.guest (r : Request) : Bool := r.token.isSome

/-- The quantities of an order fit the column that is to hold them. -/
def Request.Fits : Request → Prop
  | .createOrder _ body => ∀ line ∈ body.items, line.quantity ≤ int4Max
  | _ => True

/-- The token is the one of an active table of an active restaurant. -/
structure Serves (c : Catalog) (qrToken : String) (tableId restaurantId : Uuid) : Prop where
  table : ∃ table, c.activeTable qrToken = some table ∧ table.id = tableId ∧
    table.restaurantId = restaurantId
  restaurant : (c.restaurants.find? fun r => r.id == restaurantId && r.isActive).isSome

def Catalog.offers (c : Catalog) (restaurantId menuItemId : Uuid) : Bool :=
  (c.menuItems.find? fun m =>
    m.id == menuItemId && m.restaurantId == restaurantId && m.isActive).any MenuItem.isAvailable

/-- The insert of an open session meets one that is there. -/
def Event.lost (e : Event n) : Bool :=
  match e.stmt with
  | .command (.insertSession _ tableId _) =>
    e.before.sessions.any fun s => s.tableId == tableId && s.status == .opened
  | _ => false

/-- What a guest may count on at each of its statements. -/
structure Smooth (qrToken : String) (tableId restaurantId : Uuid) (e : Event n) : Prop where
  wins : e.lost = false
  alive : e.killed = false
  serves : Serves e.catalog qrToken tableId restaurantId

theorem Event.noOpen_of_not_lost {tableId restaurantId : Uuid} {openedBy : Option Uuid}
    (hs : e.stmt = .command (.insertSession restaurantId tableId openedBy)) (h : e.lost = false) :
    e.before.NoOpen tableId := by
  intro s hm ht ho
  rw [lost, hs] at h
  exact List.any_eq_false.mp h s hm (by simp [ht, ho])

section Opened

/-- Sessions that are open stay so. -/
def StaysOpen (d d' : Data) : Prop :=
  ∀ k s, lookup k d.sessions = some s → s.status = .opened →
    ∃ s', lookup k d'.sessions = some s' ∧ s'.status = .opened

theorem Entry.staysOpen {hb : List (Event n)} (hg : ∀ t, (req t).guest = true)
    (hen : Entry owner req hb e) : StaysOpen e.before e.after := by
  intro k s hs ho
  rcases hen.unchanged_or_committed with ha | ⟨h, hc⟩
  · exact ⟨s, ha ▸ hs, ho⟩
  · obtain ⟨s', hs', hst⟩ := hc.session hs
    refine ⟨s', hs', ?_⟩
    have hj := hc.justified
    have hq := hg e.client
    cases hst with
    | reopened => cases hr : req e.client <;> simp [hr, Request.guest, Request.token, Justified] at hq hj
    | left items kind =>
      cases hr : req e.client <;> simp [hr, Request.guest, Request.token, Justified, LeaveOf] at hq hj
    | _ => exact ho

theorem Inv.staysOpen {σ : Sys n} (hi : Inv owner req d₀ σ) (hg : ∀ t, (req t).guest = true)
    (he : e ∈ σ.history) : StaysOpen e.after σ.data := by
  refine hi.rel (fun d k s hs ho => ⟨s, hs, ho⟩) (fun hab hbc k s hs ho => ?_)
    (fun _ _ hen => hen.staysOpen hg) he
  obtain ⟨s', hs', ho'⟩ := hab k s hs ho
  exact hbc k s' hs' ho'

end Opened

theorem Met.stillOpen {σ : Sys n} (h : Met tableId k l) (hi : Inv owner req d₀ σ)
    (hg : ∀ t, (req t).guest = true) (hl : own t σ.history = l) : OpenAt tableId k σ.data := by
  obtain ⟨e, he, s, hs, ht, ho⟩ := h
  have hm : e ∈ σ.history := List.mem_of_mem_filter (hl ▸ he)
  obtain ⟨s', hs', ht', -⟩ := (hi.grows hm).session hs
  obtain ⟨s₁, hs₁, ho₁⟩ := hi.staysOpen hg hm k s hs ho
  cases hs'.symm.trans hs₁
  exact ⟨s', hs', ht'.trans ht, ho₁⟩

namespace Watch

variable {post : Except Exn α → List (Event n) → Prop}

abbrev Guest (owner : Uuid → Uuid) (req : Fin n → Request) (d₀ : Data) (t : Fin n)
    (qrToken : String) (tableId restaurantId : Uuid) (p : Action α)
    (post : Except Exn α → List (Event n) → Prop) (l : List (Event n)) : Prop :=
  Watch owner req d₀ t (Smooth qrToken tableId restaurantId) anywhere p post l

namespace Guest

theorem resolveTable {f : Table × Restaurant → Action α} (hidle : Idle l)
    (hok : ∀ table restaurant l', table.id = tableId → restaurant.id = restaurantId → Idle l' →
      Guest owner req d₀ t qrToken tableId restaurantId (f (table, restaurant)) post l') :
    Guest owner req d₀ t qrToken tableId restaurantId
      (Customer.resolveTable qrToken >>= f) post l := by
  simp only [Customer.resolveTable, bind_assoc]
  refine query trivial fun σ _ _ _ hv => ?_
  obtain ⟨table, htab, hid, hrid⟩ := hv.serves.table
  have htab' : σ.catalog.activeTable qrToken = some table := htab
  rw [Query.eval, htab']
  simp only [bind_assoc]
  refine query trivial fun σ₁ _ _ _ hv₁ => ?_
  have hrest : (σ₁.catalog.restaurants.find? fun r => r.id == restaurantId && r.isActive).isSome :=
    hv₁.serves.restaurant
  obtain ⟨restaurant, hr⟩ := Option.isSome_iff_exists.mp hrest
  rw [Query.eval, hrid, hr]
  have hp := List.find?_some hr
  simp only [Bool.and_eq_true, beq_iff_eq] at hp
  exact hok table restaurant _ hid hp.1 ((hidle.snoc rfl).snoc rfl)

theorem command_sure {c : Command} {f : Data → Action α}
    (hv : ∀ σ, Inv owner req d₀ σ → own t σ.history = l → c.violation (σ.ctx t) (σ.view t) = none)
    (hok : ∀ σ : Sys n, Guest owner req d₀ t qrToken tableId restaurantId (f (σ.rows t c)) post
      (l ++ [σ.event t (.command c) (.ok (σ.rows t c)) σ.data])) :
    Guest owner req d₀ t qrToken tableId restaurantId (Action.command c >>= f) post l :=
  Watch.command_sure trivial (fun _ he => he.alive) (fun σ _ hi _ hl _ => hv σ hi hl)
    fun σ _ _ _ => hok σ

theorem commitNew {s : TableSession} {f : SessionService.Opened → Action α}
    (hg : ∀ t, (req t).guest = true) (hidle : Idle l) (hrows : e.rows = { sessions := [s] })
    (he : e.ends = false) (ht : s.tableId = tableId) (ho : s.status = .opened)
    (hok : ∀ opened l', opened.expired = false → opened.session.status = .opened →
      Met tableId opened.session.id l' → Idle l' →
      Guest owner req d₀ t qrToken tableId restaurantId (f opened) post l') :
    Guest owner req d₀ t qrToken tableId restaurantId
      (SessionService.commitNew { sessions := [s] } >>= f) post (l ++ [e]) := by
  simp only [SessionService.commitNew, List.head?_cons, Action.scalarOne, Prog.pure_def,
    Prog.ret_bind, bind_assoc]
  refine commit trivial fun σ hi htr hl _ => ?_
  have hlook : lookup s.id (σ.view t).sessions = some s := by
    rw [htr.view_rows hl hidle he, hrows]
    simp [lookup_singleton]
  have hidle' : Idle (l ++ [e] ++ [σ.event t .commit (.ok ()) (σ.view t)]) := Idle.ended _ rfl
  refine query trivial fun σ₁ hi₁ htr₁ hl₁ _ => ?_
  have hm : σ.event t .commit (.ok ()) (σ.view t) ∈ σ₁.history :=
    List.mem_of_mem_filter (hl₁ ▸ List.mem_append_right _ List.mem_cons_self)
  obtain ⟨s', hs', ho'⟩ := hi₁.staysOpen hg hm s.id s hlook ho
  have hk : s'.id = s.id := key_of_lookup hs'
  rw [Query.eval, htr₁.view (hl₁ ▸ hidle'), hs']
  refine hok ⟨s', false⟩ _ rfl ho' ?_ (hidle'.snoc rfl)
  exact ⟨_, List.mem_append_left _ (List.mem_append_right _ List.mem_cons_self), s, hk ▸ hlook, ht, ho⟩

theorem getOrOpen {openedBy : Option Uuid} {f : SessionService.Opened → Action α}
    (hg : ∀ t, (req t).guest = true) (hidle : Idle l)
    (hok : ∀ opened l', opened.expired = false → opened.session.status = .opened →
      Met tableId opened.session.id l' → Idle l' →
      Guest owner req d₀ t qrToken tableId restaurantId (f opened) post l') :
    Guest owner req d₀ t qrToken tableId restaurantId
      (SessionService.getOrOpen tableId restaurantId openedBy >>= f) post l := by
  simp only [SessionService.getOrOpen, QOrder.findOpenSession, bind_assoc]
  refine query trivial fun σ hi ht hl _ => ?_
  rw [Query.eval, ht.view (hl ▸ hidle)]
  rcases openSessions_eq hi.ok tableId with ⟨hno, he⟩ | ⟨s, hs, hst, ho, he⟩
  · simp only [he, Action.scalarOneOrNone, Prog.pure_def, Prog.ret_bind, Option.map_none, bind_assoc]
    refine attempt trivial (fun σ₁ _ _ _ _ _ => ?_) fun σ₁ e _ ht₁ hl₁ hv hs => ?_
    · exact commitNew hg (hidle.snoc rfl) rfl rfl rfl rfl hok
    · rcases hv with hv | rfl
      · rw [ht₁.view (hl₁ ▸ hidle.snoc rfl)] at hv
        exact absurd (Event.noOpen_of_not_lost rfl hs.wins) (insertSession_violation hv).2
      · exact absurd hs.alive (by simp [Sys.event, Event.killed])
  · simp only [he, Action.scalarOneOrNone, Prog.pure_def, Prog.ret_bind, Option.map_some]
    refine hok ⟨s, false⟩ _ rfl ho ?_ (hidle.snoc rfl)
    exact ⟨_, List.mem_append_right _ List.mem_cons_self, s, hi.ok.mem_sessions.mp hs, hst, ho⟩

theorem scalarOne {β : Type} {a : Option β} {f : β → Action α}
    (hok : ∀ b, a = some b → Guest owner req d₀ t qrToken tableId restaurantId (f b) post l)
    (herr : ∀ e : Exn, e.Irregular → post (.error e) l) :
    Guest owner req d₀ t qrToken tableId restaurantId (Action.scalarOne a >>= f) post l := by
  cases a with
  | none => exact herr .noResultFound ⟨id, fun _ h => by cases h⟩
  | some b => exact hok b rfl

/-- The call the client has met, or the recent one that keeps it from calling. -/
def Called (tableId : Uuid) (call : Option StaffCall) (l : List (Event n)) : Prop :=
  ∃ e ∈ l, match call with
    | some call => call ∈ e.before.calls
    | none => ∃ recent ∈ e.before.calls, recent.tableId = tableId

def StaffPost (tableId : Uuid) (r : Except Exn (Option StaffCall)) (l : List (Event n)) : Prop :=
  match r with
  | .ok call => Called tableId call l
  | .error e => e.Irregular

theorem callStaff (hg : ∀ t, (req t).guest = true) :
    Guest owner req d₀ t qrToken tableId restaurantId (Customer.callStaff qrToken)
      (StaffPost tableId) [] := by
  unfold Customer.callStaff
  refine resolveTable .nil fun table restaurant l₁ htab hres hidle => ?_
  subst htab hres
  refine getOrOpen hg hidle fun opened l₂ hex _ _ hidle₂ => ?_
  simp only [hex, readAttribute, Bool.false_eq_true, if_false, Prog.pure_def, Prog.ret_bind]
  simp only [StaffCallService.create, StaffCallService.getCooldown, bind_assoc]
  refine query trivial fun σ _ _ _ _ => ?_
  refine query trivial fun σ₁ _ ht₁ hl₁ _ => ?_
  rw [ht₁.view (hl₁ ▸ hidle₂.snoc rfl)]
  split
  next hrecent =>
    obtain ⟨recent, hm, hr⟩ := List.any_eq_true.mp hrecent
    simp only [Bool.and_eq_true, beq_iff_eq] at hr
    exact ⟨_, List.mem_append_right _ List.mem_cons_self, recent, hm, hr.1⟩
  · simp only [StaffCallService.insertCall, bind_assoc]
    refine command_sure (fun σ _ _ => by simp [Command.violation, Command.indexEntries])
      fun σ₂ => ?_
    refine command_sure (fun σ _ _ => by simp [Command.violation, Command.indexEntries])
      fun σ₃ => ?_
    refine scalarOne (fun call _ => ?_) fun e he => he
    refine commit trivial fun σ₄ _ _ _ _ => ?_
    refine query trivial fun σ₅ _ ht₅ hl₅ _ => ?_
    rw [ht₅.view (hl₅ ▸ Idle.ended _ rfl)]
    refine scalarOne (fun row hrow => ?_) fun e he => he
    simp only [StaffCallService.publishNew, bind_assoc]
    refine publish trivial fun σ₆ _ _ _ _ => publish trivial fun σ₇ _ _ _ _ => ?_
    exact ⟨_, List.mem_append_left _ (List.mem_append_left _ (List.mem_append_right _
      List.mem_cons_self)), mem_of_lookup hrow⟩

/-- The open session of the table had such an item when the client looked. -/
def ItemThere (tableId restaurantId itemId : Uuid) (there : Bool) (l : List (Event n)) : Prop :=
  ∃ e ∈ l, ∃ k, OpenAt tableId k e.before ∧
    ((e.before.itemsOf k).any fun i => i.id == itemId && i.restaurantId == restaurantId) = there

def itemForeign : Exn := .http 404 "Món không tồn tại hoặc không thuộc phiên của bạn."

def CancelPost (tableId restaurantId itemId : Uuid) (r : Except Exn OrderItem)
    (l : List (Event n)) : Prop :=
  match r with
  | .ok _ => ItemThere tableId restaurantId itemId true l
  | .error e => e.Irregular ∨ e = itemForeign ∧ ItemThere tableId restaurantId itemId false l ∨
    (∃ message, e = .http 409 message) ∧ ItemThere tableId restaurantId itemId true l

theorem ItemThere.mono {there : Bool} (h : ItemThere tableId restaurantId itemId there l)
    (hl : l ⊆ l') : ItemThere tableId restaurantId itemId there l' := by
  obtain ⟨e, he, h⟩ := h
  exact ⟨e, hl he, h⟩

theorem cancelItem {reason : Option String} (hthere : ItemThere tableId restaurantId itemId true l) :
    Guest owner req d₀ t qrToken tableId restaurantId
      (QOrder.translate conflictToHttp
        (ItemStateService.cancelItem itemId .customer restaurantId [.pending] reason))
      (CancelPost tableId restaurantId itemId) l := by
  have hcancel : Guest owner req d₀ t qrToken tableId restaurantId
      (ItemStateService.cancelItem itemId .customer restaurantId [.pending] reason)
      (fun r l' => ItemThere tableId restaurantId itemId true l' ∧
        ∀ e, r = .error e → ∃ message, e = .conflictError message) l := by
    unfold ItemStateService.cancelItem ItemStateService.updateItem
    refine command_sure (fun σ _ _ => by simp [Command.violation, Command.indexEntries])
      fun σ => ?_
    split
    · refine ⟨hthere.mono (by simp), ?_⟩
      rintro e ⟨⟩
      exact ⟨_, rfl⟩
    · refine command_sure (fun σ _ _ => by simp [Command.violation, Command.indexEntries])
        fun σ₁ => ?_
      refine commit trivial fun σ₂ _ _ _ _ => ?_
      exact ⟨hthere.mono (by simp), fun e he => by cases he⟩
  refine hcancel.translate (fun a l' hp => hp.1) fun e l' hp => ?_
  obtain ⟨message, rfl⟩ := hp.2 e rfl
  exact .inr (.inr ⟨⟨message, rfl⟩, hp.1⟩)

theorem cancelItemCustomer {reason : Option String} (hg : ∀ t, (req t).guest = true) :
    Guest owner req d₀ t qrToken tableId restaurantId
      (Customer.cancelItemCustomer qrToken itemId reason) (CancelPost tableId restaurantId itemId) [] := by
  unfold Customer.cancelItemCustomer
  refine resolveTable .nil fun table restaurant l₁ htab hres hidle => ?_
  subst htab hres
  refine getOrOpen hg hidle fun opened l₂ hex _ hmet hidle₂ => ?_
  simp only [hex, readAttribute, Bool.false_eq_true, if_false, Prog.pure_def, Prog.ret_bind]
  refine query trivial fun σ hi ht hl _ => ?_
  have hthere (r) : ItemThere table.id restaurant.id itemId
      ((Query.itemInSession itemId opened.session.id restaurant.id).eval (σ.ctx t) σ.catalog σ.data)
      (l₂ ++ [σ.event t (.query (.itemInSession itemId opened.session.id restaurant.id)) r σ.data]) :=
    ⟨_, List.mem_append_right _ List.mem_cons_self, _, hmet.stillOpen hi hg hl, rfl⟩
  rw [ht.view (hl ▸ hidle₂)]
  split
  next hin =>
    rw [hin] at hthere
    refine Along.bind (cancelItem (hthere _)) (fun row l₃ hp => ?_) fun e l₃ hp => hp
    simp only [Customer.publishCancelled, bind_assoc]
    refine publish trivial fun σ₁ _ _ _ _ => publish trivial fun σ₂ _ _ _ _ => ?_
    exact ItemThere.mono hp (by simp)
  next hout =>
    rw [Bool.not_eq_true] at hout
    rw [hout] at hthere
    exact .inr (.inl ⟨rfl, hthere _⟩)

/-- The menu did not offer a line of the order when the client looked it up. -/
def Refused (restaurantId : Uuid) (lines : List CreateOrderItemRequest) (l : List (Event n)) : Prop :=
  ∃ e ∈ l, ∃ line ∈ lines, e.catalog.offers restaurantId line.menuItemId = false

theorem validateItems {lines : List CreateOrderItemRequest} {menuItems : List MenuItem}
    {f : List MenuItem → Action α} (havail : ∀ m ∈ menuItems, m.isAvailable = true) (hidle : Idle l)
    (hok : ∀ menuItems' l', l ⊆ l' → Idle l' → menuItems ⊆ menuItems' →
      (∀ line ∈ lines, ∃ m ∈ menuItems', m.id = line.menuItemId) →
      Guest owner req d₀ t qrToken tableId restaurantId (f menuItems') post l')
    (herr : ∀ message l', Refused restaurantId lines l' → post (.error (.http 400 message)) l') :
    Guest owner req d₀ t qrToken tableId restaurantId
      (Customer.validateItems restaurantId lines menuItems >>= f) post l := by
  induction lines generalizing l menuItems with
  | nil => exact hok menuItems l (List.Subset.refl _) hidle (List.Subset.refl _) (by simp)
  | cons line lines ih =>
    have later {l' : List (Event n)} (h : Refused restaurantId lines l') :
        Refused restaurantId (line :: lines) l' := by
      obtain ⟨e, he, line', hl, ho⟩ := h
      exact ⟨e, he, line', List.mem_cons_of_mem _ hl, ho⟩
    simp only [Customer.validateItems, bind_assoc]
    refine query trivial fun σ _ _ _ _ => ?_
    have refused (r) (ho : σ.catalog.offers restaurantId line.menuItemId = false) :
        Refused restaurantId (line :: lines)
          (l ++ [σ.event t (.query (.menuItem line.menuItemId restaurantId)) r σ.data]) :=
      ⟨_, List.mem_append_right _ List.mem_cons_self, line, List.mem_cons_self, ho⟩
    rw [Query.eval]
    cases hrow : σ.catalog.menuItems.find? fun m =>
        m.id == line.menuItemId && m.restaurantId == restaurantId && m.isActive with
    | none => exact herr _ _ (refused _ (by simp [Catalog.offers, hrow]))
    | some row =>
      have hid : row.id = line.menuItemId := by
        have hp := List.find?_some hrow
        simp only [Bool.and_eq_true, beq_iff_eq] at hp
        exact hp.1.1
      dsimp only
      cases hknown : menuItems.find? fun m => m.id == row.id with
      | none =>
        simp only [Option.getD_none, Option.isSome_none, Bool.false_eq_true, if_false]
        split
        next ha =>
          refine ih ?_ (hidle.snoc rfl) (fun m' l' hl hi hm hc => ?_) fun message l' h =>
            herr message l' (later h)
          · intro m hm
            rcases List.mem_append.mp hm with hm | hm
            · exact havail m hm
            · rw [List.mem_singleton.mp hm]
              exact ha
          · refine hok m' l' (fun e he => hl (List.mem_append_left _ he)) hi
              (fun m hm' => hm (List.mem_append_left _ hm')) ?_
            intro line' hl'
            rcases List.mem_cons.mp hl' with rfl | hl'
            · exact ⟨row, hm (List.mem_append_right _ List.mem_cons_self), hid⟩
            · exact hc line' hl'
        next ha =>
          rw [Bool.not_eq_true] at ha
          exact herr _ _ (refused _ (by simp [Catalog.offers, hrow, ha]))
      | some known =>
        have hmem : known ∈ menuItems := List.mem_of_find?_eq_some hknown
        have hkid : known.id = row.id := by simpa using List.find?_some hknown
        simp only [Option.getD_some, Option.isSome_some, havail known hmem, if_true]
        refine ih havail (hidle.snoc rfl) (fun m' l' hl hi hm hc => ?_) fun message l' h =>
          herr message l' (later h)
        refine hok m' l' (fun e he => hl (List.mem_append_left _ he)) hi hm ?_
        intro line' hl'
        rcases List.mem_cons.mp hl' with rfl | hl'
        · exact ⟨known, hm hmem, hkid.trans hid⟩
        · exact hc line' hl'

theorem newItems_length {orderId : Uuid} {now : Timestamp} {menuItems : List MenuItem}
    {lines : List CreateOrderItemRequest}
    (hc : ∀ line ∈ lines, ∃ m ∈ menuItems, m.id = line.menuItemId) :
    (Customer.newItems restaurantId orderId now menuItems lines).length = lines.length := by
  induction lines with
  | nil => rfl
  | cons line lines ih =>
    obtain ⟨m, hm, hid⟩ := hc line List.mem_cons_self
    have hs : (menuItems.find? fun m => m.id == line.menuItemId).isSome := by
      rw [List.find?_isSome]
      exact ⟨m, hm, by simpa using hid⟩
    obtain ⟨m', hm'⟩ := Option.isSome_iff_exists.mp hs
    have hrest := ih fun line hl => hc line (List.mem_cons_of_mem _ hl)
    simpa [Customer.newItems, List.filterMap_cons, hm'] using hrest

theorem newItems_quantity {orderId : Uuid} {now : Timestamp} {menuItems : List MenuItem}
    {lines : List CreateOrderItemRequest} (hq : ∀ line ∈ lines, line.quantity ≤ int4Max) :
    ((Customer.newItems restaurantId orderId now menuItems lines).any fun n =>
      int4Max < n.quantity) = false := by
  rw [List.any_eq_false]
  intro r hr
  simp only [Customer.newItems, List.mem_filterMap, Option.map_eq_some_iff] at hr
  obtain ⟨line, hl, m, -, rfl⟩ := hr
  rw [decide_eq_true_eq]
  exact not_lt.mpr (hq line hl)

theorem setLastActivity {tableSession : TableSession} {now : Timestamp} {f : Unit → Action α}
    (hg : ∀ t, (req t).guest = true) (hmet : Met tableId tableSession.id l)
    (hok : ∀ l', Guest owner req d₀ t qrToken tableId restaurantId (f ()) post l') :
    Guest owner req d₀ t qrToken tableId restaurantId
      (Customer.setLastActivity tableSession now >>= f) post l := by
  unfold Customer.setLastActivity
  split
  · exact hok l
  simp only [bind_assoc]
  refine command_sure (fun σ hi hl => ?_) fun σ => hok _
  -- The session is there, so the update matches a row.
  obtain ⟨s, hs, -⟩ := hmet.stillOpen hi hg hl
  have hview : (lookup tableSession.id (σ.view t).sessions).isSome := by
    simp [Sys.view, hs]
  obtain ⟨s', hs'⟩ := Option.isSome_iff_exists.mp hview
  have hk : s'.id = tableSession.id := key_of_lookup hs'
  have hm : s'.touch now ∈ changed (fun s => s.id == tableSession.id) (fun s => s.touch now)
      (σ.view t).sessions :=
    mem_changed.mpr ⟨s', mem_of_lookup hs', by simpa using hk, rfl⟩
  have hne := List.ne_nil_of_mem hm
  simpa [Command.violation, Command.indexEntries, Command.rows] using hne

theorem placeOrder {tableSession : TableSession} {menuItems : List MenuItem}
    {lines : List CreateOrderItemRequest} {f : Order × List OrderItem → Action α}
    (hg : ∀ t, (req t).guest = true) (hmet : Met tableId tableSession.id l)
    (hc : ∀ line ∈ lines, ∃ m ∈ menuItems, m.id = line.menuItemId)
    (hq : ∀ line ∈ lines, line.quantity ≤ int4Max)
    (hok : ∀ order items l', items.length = lines.length →
      Guest owner req d₀ t qrToken tableId restaurantId (f (order, items)) post l') :
    Guest owner req d₀ t qrToken tableId restaurantId
      (Customer.placeOrder restaurantId tableSession menuItems lines >>= f) post l := by
  simp only [Customer.placeOrder, bind_assoc]
  refine appNow trivial fun σ _ _ _ _ => ?_
  refine command_sure (fun σ _ _ => by simp [Command.violation, Command.indexEntries])
    fun σ₁ => ?_
  simp only [Sys.rows, Command.rows, List.head?_cons, Action.scalarOne, Prog.pure_def, Prog.ret_bind]
  refine command_sure (fun σ _ _ => ?_) fun σ₂ => ?_
  · simp [Command.violation, Command.indexEntries, newItems_quantity hq]
  refine setLastActivity hg (hmet.mono (by simp)) fun l' => ?_
  refine commit trivial fun σ₄ _ _ _ _ => ?_
  refine hok _ _ _ ?_
  simp [Sys.rows, Command.rows, newItems_length hc]

theorem refreshItems {items : List OrderItem} {f : List OrderItem → Action α}
    (hok : ∀ items' l', items'.length = items.length →
      Guest owner req d₀ t qrToken tableId restaurantId (f items') post l')
    (herr : ∀ (e : Exn) l', e.Irregular → post (.error e) l') :
    Guest owner req d₀ t qrToken tableId restaurantId
      (Customer.refreshItems items >>= f) post l := by
  induction items generalizing l f with
  | nil => exact hok [] l rfl
  | cons item items ih =>
    simp only [Customer.refreshItems, bind_assoc]
    refine query trivial fun σ _ _ _ _ => ?_
    refine scalarOne (fun item' _ => ?_) fun e he => herr e _ he
    refine ih fun items' l' hlen => hok _ l' ?_
    simp [hlen]

def OrderPost (restaurantId : Uuid) (lines : List CreateOrderItemRequest)
    (r : Except Exn CreateOrderResponse) (l : List (Event n)) : Prop :=
  match r with
  | .ok response => response.items.length = lines.length
  | .error e => e.Irregular ∨ (∃ message, e = .http 400 message) ∧ Refused restaurantId lines l

theorem createOrder {body : CreateOrderRequest} (hg : ∀ t, (req t).guest = true)
    (hq : ∀ line ∈ body.items, line.quantity ≤ int4Max) :
    Guest owner req d₀ t qrToken tableId restaurantId (Customer.createOrder qrToken body)
      (OrderPost restaurantId body.items) [] := by
  unfold Customer.createOrder
  refine resolveTable .nil fun table restaurant l₁ htab hres hidle => ?_
  subst htab hres
  refine getOrOpen hg hidle fun opened l₂ hex ho hmet hidle₂ => ?_
  simp only [ho, ne_eq, not_true_eq_false, if_false, hex, readAttribute, Bool.false_eq_true,
    Prog.pure_def, Prog.ret_bind]
  refine validateItems (by simp) hidle₂ (fun menuItems l₃ hl _ _ hc => ?_) fun message l₃ hr =>
    .inr ⟨⟨message, rfl⟩, hr⟩
  refine placeOrder hg (hmet.mono hl) hc hq fun order items l₄ hlen => ?_
  refine query trivial fun σ _ _ _ _ => ?_
  refine scalarOne (fun order _ => ?_) fun e he => .inl he
  refine refreshItems (fun items' l₅ hlen' => ?_) fun e l₅ he => .inl he
  simp only [Customer.publishOrder, bind_assoc]
  refine publish trivial fun σ₁ _ _ _ _ => publish trivial fun σ₂ _ _ _ _ => ?_
  exact hlen'.trans hlen

end Guest

end Watch

section Served

/-- What a guest is answered at a table whose session is open. -/
def Served (r : Request) (tableId restaurantId : Uuid)
    (res : Except Exn Response) (l : List (Event n)) : Prop :=
  match r, res with
  | .createOrder _ body, .ok (.order response) =>
    MetOpen tableId response.tableSessionId l ∧ response.items.length = body.items.length
  | .createOrder _ body, .error e => (∃ message, e = .http 400 message) ∧
    Watch.Guest.Refused restaurantId body.items l
  | .cancelItemCustomer _ itemId _, .ok (.item _) =>
    Watch.Guest.ItemThere tableId restaurantId itemId true l
  | .cancelItemCustomer _ itemId _, .error e =>
    e = Watch.Guest.itemForeign ∧ Watch.Guest.ItemThere tableId restaurantId itemId false l ∨
      (∃ message, e = .http 409 message) ∧ Watch.Guest.ItemThere tableId restaurantId itemId true l
  | .callStaff _, .ok (.call call) => Watch.Guest.Called tableId call l
  | _, _ => False

variable {res : Except Exn Response}

/-- At a table that is served by an active restaurant, the guest gets its answer. -/
def GuestServed (req : Fin n → Request) (p : Clients n) (t : Fin n) : Prop :=
  ∀ qrToken tableId restaurantId res, (req t).token = some qrToken →
    (∀ e ∈ own t p.state.history, Serves e.catalog qrToken tableId restaurantId) →
    (p.threads t).answer = some res →
    Served (req t) tableId restaurantId res (own t p.state.history)

/-- No insert of the client meets an open session, none of its statements is aborted, and
its quantities fit. -/
structure Unhindered (r : Request) (l : List (Event n)) : Prop where
  wins : ∀ e ∈ l, e.lost = false
  alive : ∀ e ∈ l, e.killed = false
  fits : r.Fits

theorem guest_served (hg : ∀ t, (req t).guest = true) (hr : D.Reaches req p)
    (hu : Unhindered (req t) (own t p.state.history)) : GuestServed req p t := by
  intro qrToken tableId restaurantId res hq hs ha
  have hv : ∀ e ∈ own t p.state.history, Smooth qrToken tableId restaurantId e :=
    fun e he => ⟨hu.wins e he, hu.alive e he, hs e he⟩
  have hend := (hr.kept.ended ha).2
  have hfit := hu.fits
  cases hreq : req t with
  | createOrder qr body =>
    rw [hreq] at hq hfit hend
    cases hq
    rcases hr.wrapped (by rw [hreq]; rfl) hv (Watch.Guest.createOrder hg hfit) ha with
      ⟨response, rfl, hlen⟩ | ⟨e, rfl, he⟩
    · obtain ⟨_, ⟨e, he, -, table, htab, rfl⟩, hmet⟩ := hend
      obtain ⟨table', htab', rfl, -⟩ := (hs e he).table
      cases htab.symm.trans htab'
      exact ⟨hmet, hlen⟩
    · exact he.resolve_left (hr.not_irregular ha)
  | cancelItemCustomer qr itemId reason =>
    rw [hreq] at hq
    cases hq
    rcases hr.wrapped (by rw [hreq]; rfl) hv (Watch.Guest.cancelItemCustomer hg) ha with
      ⟨item, rfl, hthere⟩ | ⟨e, rfl, he⟩
    · exact hthere
    · exact he.resolve_left (hr.not_irregular ha)
  | callStaff qr =>
    rw [hreq] at hq
    cases hq
    rcases hr.wrapped (by rw [hreq]; rfl) hv (Watch.Guest.callStaff hg) ha with
      ⟨call, rfl, hcall⟩ | ⟨e, rfl, he⟩
    · exact hcall
    · exact absurd he (hr.not_irregular ha)
  | _ => simp [hreq, Request.token] at hq

def cafeGuests : Fin 2 → Request
  | 0 => cafeOrder
  | 1 => .callStaff "ban-1"

theorem cafe_serves : Serves cafe.catalog "ban-1" 2 1 where
  table := ⟨{ id := 2, restaurantId := 1, qrToken := "ban-1" }, by decide, rfl, rfl⟩
  restaurant := by decide

/-- One guest opens the session, the next one finds it open. -/
theorem guest_served_cafe : ∃ p, cafe.Reaches cafeGuests p ∧
    ∀ t, (p.threads t).answer.isSome ∧ GuestServed cafeGuests p t := by
  have hg : ∀ t, (cafeGuests t).guest = true := by decide
  have hfit : ∀ t, (cafeGuests t).Fits :=
    Fin.forall_fin_two.mpr ⟨by simp [cafeGuests, cafeOrder, Request.Fits, int4Max], trivial⟩
  obtain ⟨p, hr, hc⟩ := cafe.reaches_play cafeGuests
    (fun p => (p.state.history.all fun e => !e.lost && !e.killed) &&
      ((p.threads 0).answer.isSome && (p.threads 1).answer.isSome))
    (steps 0 15 ++ steps 1 11) (by decide +kernel)
  simp only [Bool.and_eq_true, List.all_eq_true, Bool.not_eq_true'] at hc
  obtain ⟨hev, hends⟩ := hc
  have hends : ∀ t, (p.threads t).answer.isSome = true := Fin.forall_fin_two.mpr hends
  refine ⟨p, hr, fun t => ⟨hends t, guest_served hg hr ⟨?_, ?_, hfit t⟩⟩⟩
  · exact fun e he => (hev e (List.mem_of_mem_filter he)).1
  · exact fun e he => (hev e (List.mem_of_mem_filter he)).2

/-- Both guests find no session; the one that loses the insert reads an expired object. -/
theorem guest_served_fails : ¬ ∀ p, cafe.Reaches cafeGuests p → ∀ t, GuestServed cafeGuests p t := by
  intro h
  obtain ⟨p, hr, hc⟩ := cafe.reaches_play cafeGuests
    (fun p => decide (failure p 1 = some .missingGreenlet) &&
      p.state.history.all fun e => decide (e.catalog = cafe.catalog))
    (steps 0 3 ++ steps 1 3 ++ steps 0 2 ++ steps 1 3) (by decide +kernel)
  simp only [Bool.and_eq_true, List.all_eq_true, decide_eq_true_eq] at hc
  obtain ⟨hf, hcat⟩ := hc
  refine h p hr 1 "ban-1" 2 1 _ rfl (fun e he => ?_) (answer_of_failure hf)
  rw [hcat e (List.mem_of_mem_filter he)]
  exact cafe_serves

end Served

end QOrder
