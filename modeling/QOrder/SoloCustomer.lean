import QOrder.Solo

/-! The customer endpoints, each run alone: what it answers, which rows it leaves and
which messages it publishes, as functions of the catalog and of the data it finds. -/

namespace QOrder

open KeyedTable Concurrency

section Resolving

/-- The active table and restaurant of a token. -/
def Catalog.resolve (c : Catalog) (qrToken : String) : Except Exn (Table × Restaurant) :=
  match c.activeTable qrToken with
  | none => .error (.http 404 "Mã QR không hợp lệ hoặc bàn đã ngừng hoạt động.")
  | some table =>
    match c.restaurants.find? fun r => r.id == table.restaurantId && r.isActive with
    | none => .error (.http 404 "Nhà hàng hiện không hoạt động.")
    | some restaurant => .ok (table, restaurant)

variable {α : Type} {s : Solo} {qrToken : String} {table : Table} {restaurant : Restaurant} {e : Exn}

theorem Solo.run_resolveTable (s : Solo) (qrToken : String) :
    s.run (Customer.resolveTable qrToken) = (s.catalog.resolve qrToken, s) := by
  unfold Customer.resolveTable Catalog.resolve
  cases ht : s.catalog.activeTable qrToken with
  | none =>
    have hq : (Query.tableByToken qrToken).eval s.ctx s.catalog s.view = none := ht
    rw [Solo.run_query hq]
    rfl
  | some table =>
    have hq : (Query.tableByToken qrToken).eval s.ctx s.catalog s.view = some table := ht
    cases hr : s.catalog.restaurants.find? fun r => r.id == table.restaurantId && r.isActive with
    | none =>
      have hq' : (Query.activeRestaurant table.restaurantId).eval s.ctx s.catalog s.view = none := hr
      rw [Solo.run_query hq]
      dsimp only
      rw [Solo.run_query hq', hr]
      rfl
    | some restaurant =>
      have hq' : (Query.activeRestaurant table.restaurantId).eval s.ctx s.catalog s.view =
        some restaurant := hr
      rw [Solo.run_query hq]
      dsimp only
      rw [Solo.run_query hq', hr]
      rfl

theorem Solo.resolve_ok {f : Table × Restaurant → Action α}
    (h : s.catalog.resolve qrToken = .ok (table, restaurant)) :
    s.run (Customer.resolveTable qrToken >>= f) = s.run (f (table, restaurant)) :=
  Solo.bind_ok (by rw [Solo.run_resolveTable, h])

theorem Solo.resolve_error {f : Table × Restaurant → Action α} (h : s.catalog.resolve qrToken = .error e) :
    s.run (Customer.resolveTable qrToken >>= f) = (.error e, s) :=
  Solo.bind_error (by rw [Solo.run_resolveTable, h])

end Resolving

section Opening

variable {α : Type} {s s' : Solo} {tableId restaurantId : Uuid} {openedBy : Option Uuid} {x : TableSession}

def Data.openOn (d : Data) (tableId : Uuid) : List TableSession :=
  d.sessions.filter fun s => s.tableId == tableId && s.status == .opened

/-- The row that `INSERT INTO table_sessions` writes. -/
@[simps] def Ctx.newSession (ctx : Ctx) (tableId restaurantId : Uuid) (openedBy : Option Uuid) : TableSession where
  id := ctx.nextUuid
  restaurantId := restaurantId
  tableId := tableId
  status := .opened
  openedBy := openedBy
  openedAt := ctx.now
  lastActivityAt := ctx.now
  closedAt := none
  abandonedAt := none
  totalAmount := none

/-- A session has been opened and committed. -/
def Solo.opened (s : Solo) (tableId restaurantId : Uuid) (openedBy : Option Uuid) : Solo :=
  { s with
    data := s.data.overlay { sessions := [s.ctx.newSession tableId restaurantId openedBy] }
    nextUuid := s.nextUuid + 1 }

/-- No transaction is running. -/
def Solo.Rests (s : Solo) : Prop := s.writes = {}

theorem Solo.Rests.view (h : s.Rests) : s.view = s.data := by
  rw [Solo.view, h, Data.overlay_empty]

theorem Solo.Rests.opened (h : s.Rests) : (s.opened tableId restaurantId openedBy).Rests := h

/-- The outcome of `get_or_open`: the session, and the state it leaves. -/
def Solo.getOrOpen (s : Solo) (tableId restaurantId : Uuid) (openedBy : Option Uuid) :
    Except Exn SessionService.Opened × Solo :=
  match s.data.openOn tableId with
  | [] => (.ok ⟨s.ctx.newSession tableId restaurantId openedBy, false⟩,
      s.opened tableId restaurantId openedBy)
  | [x] => (.ok ⟨x, false⟩, s)
  | _ => (.error .multipleResultsFound, s)

theorem Solo.run_commitNew (h : s.Rests) :
    (s.write (.insertSession restaurantId tableId openedBy)).run
        (SessionService.commitNew (s.rows (.insertSession restaurantId tableId openedBy))) =
      (.ok ⟨s.ctx.newSession tableId restaurantId openedBy, false⟩, s.opened tableId restaurantId openedBy) := by
  have hrows : s.rows (.insertSession restaurantId tableId openedBy) =
      { sessions := [s.ctx.newSession tableId restaurantId openedBy] } := rfl
  have hwrites : s.writes.overlay (s.rows (.insertSession restaurantId tableId openedBy)) =
      { sessions := [s.ctx.newSession tableId restaurantId openedBy] } := by
    rw [h, hrows]
    simp [Data.overlay]
  have hstate : (s.write (.insertSession restaurantId tableId openedBy)).commit =
      s.opened tableId restaurantId openedBy := by
    rw [Solo.commit, Solo.view, Solo.write, hwrites, Solo.opened, ← h]
    rfl
  have hrests : (s.opened tableId restaurantId openedBy).Rests := h.opened
  have hq : (Query.sessionById (s.ctx.newSession tableId restaurantId openedBy).id).eval
      (s.opened tableId restaurantId openedBy).ctx (s.opened tableId restaurantId openedBy).catalog
      (s.opened tableId restaurantId openedBy).view =
        some (s.ctx.newSession tableId restaurantId openedBy) := by
    rw [Query.eval, hrests.view, Solo.opened, Data.overlay_sessions, lookup_overlay, lookup_singleton]
    simp
  unfold SessionService.commitNew
  rw [hrows]
  simp only [List.head?_cons, Action.scalarOne, Prog.pure_def, Prog.ret_bind, Solo.run_commit, hstate]
  rw [Solo.run_query hq]
  rfl

theorem Solo.run_getOrOpen (h : s.Rests) :
    s.run (SessionService.getOrOpen tableId restaurantId openedBy) =
      s.getOrOpen tableId restaurantId openedBy := by
  unfold SessionService.getOrOpen findOpenSession Solo.getOrOpen
  have hq : (Query.openSessions tableId).eval s.ctx s.catalog s.view = s.data.openOn tableId := by
    rw [h.view]
    rfl
  simp only [bind_assoc]
  rw [Solo.run_query hq]
  cases ho : s.data.openOn tableId with
  | nil =>
    have hv : Command.violation s.ctx s.view (.insertSession restaurantId tableId openedBy) = none := by
      have hn : (s.data.sessions.any fun x =>
          x.tableId == tableId && x.status == .opened && x.id != s.nextUuid) = false := by
        rw [List.any_eq_false]
        intro x hx hp
        have hmem : x ∈ s.data.openOn tableId := by
          rw [Data.openOn, List.mem_filter]
          simp only [Bool.and_eq_true] at hp
          exact ⟨hx, by simp [hp.1.1, hp.1.2]⟩
        rw [ho] at hmem
        cases hmem
      simp only [Command.violation, Command.indexEntries, List.any_cons, List.any_nil, Bool.or_false, h.view]
      change (if _ = true then _ else _) = _
      rw [show s.ctx.nextUuid = s.nextUuid from rfl, hn]
      rfl
    have hx : Solo.exec (.command (.insertSession restaurantId tableId openedBy)) s =
        (.ok (s.rows (.insertSession restaurantId tableId openedBy)),
          s.write (.insertSession restaurantId tableId openedBy)) := by
      simp only [Solo.exec, hv]
    simp only [Action.scalarOneOrNone, Prog.pure_def, Prog.ret_bind, Option.map_none, Prog.attempt,
      Prog.stmt_bind, Solo.run, Prog.run, hx]
    exact Solo.run_commitNew h
  | cons x rest =>
    cases rest with
    | nil => rfl
    | cons y rest => rfl

/-- `get_or_open` has found or opened the session of a table. -/
structure Solo.Opens (s : Solo) (tableId restaurantId : Uuid) (openedBy : Option Uuid) (x : TableSession)
    (s' : Solo) : Prop where
  rests : s'.Rests
  catalog : s'.catalog = s.catalog
  clocks : s'.clock = s.clock ∧ s'.appClock = s.appClock
  sent : s'.sent = s.sent
  status : x.status = .opened
  table : x.tableId = tableId
  found : s' = s ∧ s.data.openOn tableId = [x] ∨
    s' = s.opened tableId restaurantId openedBy ∧ s.data.openOn tableId = [] ∧
      x = s.ctx.newSession tableId restaurantId openedBy

theorem Solo.getOrOpen_cases (h : s.Rests) (tableId restaurantId : Uuid) (openedBy : Option Uuid) :
    s.getOrOpen tableId restaurantId openedBy = (.error .multipleResultsFound, s) ∧
        s.data.openOn tableId ≠ [] ∨
      ∃ x s', s.getOrOpen tableId restaurantId openedBy = (.ok ⟨x, false⟩, s') ∧
        s.Opens tableId restaurantId openedBy x s' := by
  cases ho : s.data.openOn tableId with
  | nil =>
    refine .inr ⟨s.ctx.newSession tableId restaurantId openedBy, s.opened tableId restaurantId openedBy, ?_, ?_⟩
    · rw [Solo.getOrOpen, ho]
    · exact ⟨h, rfl, ⟨rfl, rfl⟩, rfl, rfl, rfl, .inr ⟨rfl, ho, rfl⟩⟩
  | cons x rest =>
    cases rest with
    | cons y rest =>
      refine .inl ⟨?_, by simp⟩
      rw [Solo.getOrOpen, ho]
    | nil =>
      have hx : x ∈ s.data.openOn tableId := by simp [ho]
      have hp := (List.mem_filter.mp hx).2
      simp only [Bool.and_eq_true, beq_iff_eq] at hp
      refine .inr ⟨x, s, ?_, h, rfl, ⟨rfl, rfl⟩, rfl, hp.2, hp.1, .inl ⟨rfl, ho⟩⟩
      rw [Solo.getOrOpen, ho]

theorem Solo.Opens.stored (h : s.Opens tableId restaurantId openedBy x s')
    (hk : UniqueKeys s.data.sessions) : lookup x.id s'.data.sessions = some x := by
  rcases h.found with ⟨rfl, hx⟩ | ⟨rfl, -, rfl⟩
  · have hmem : x ∈ s'.data.openOn tableId := by simp [hx]
    exact lookup_of_mem hk (List.mem_of_mem_filter hmem)
  · simp [Solo.opened, lookup_singleton]

theorem Solo.Opens.unique (h : s.Opens tableId restaurantId openedBy x s')
    (hk : UniqueKeys s.data.sessions) : UniqueKeys s'.data.sessions := by
  rcases h.found with ⟨rfl, -⟩ | ⟨rfl, -, -⟩
  · exact hk
  · exact uniqueKeys_overlay hk (uniqueKeys_singleton _)

end Opening

section Lines

variable {c : Catalog} {s : Solo} {restaurantId orderId : Uuid} {now : Timestamp} {e : Exn}
  {line : CreateOrderItemRequest} {lines : List CreateOrderItemRequest} {menuItem : MenuItem}
  {known menuItems : List MenuItem}

/-- `select(MenuItem)` of a line. -/
def Catalog.dish (c : Catalog) (restaurantId menuItemId : Uuid) : Option MenuItem :=
  c.menuItems.find? fun m => m.id == menuItemId && m.restaurantId == restaurantId && m.isActive

/-- Step e of `create_order`, for one line. -/
def Catalog.accept (c : Catalog) (restaurantId : Uuid) (line : CreateOrderItemRequest) : Except Exn MenuItem :=
  match c.dish restaurantId line.menuItemId with
  | none =>
    .error (.http 400 ("Món không tồn tại hoặc đã ngừng phục vụ (id: " ++ toString line.menuItemId ++ ")."))
  | some menuItem =>
    if menuItem.isAvailable then .ok menuItem
    else .error (.http 400 ("Món '" ++ menuItem.name ++ "' hiện đã hết."))

/-- The rows loaded so far are those that a select returns. -/
def Catalog.Loaded (c : Catalog) (restaurantId : Uuid) (known : List MenuItem) : Prop :=
  ∀ m ∈ known, c.dish restaurantId m.id = some m

theorem Catalog.dish_id {menuItemId : Uuid} (h : c.dish restaurantId menuItemId = some menuItem) :
    menuItem.id = menuItemId := by
  have hp := List.find?_some h
  simp only [Bool.and_eq_true, beq_iff_eq] at hp
  exact hp.1.1

theorem Catalog.accept_ok (h : c.accept restaurantId line = .ok menuItem) :
    c.dish restaurantId line.menuItemId = some menuItem ∧ menuItem.isAvailable = true := by
  unfold Catalog.accept at h
  cases hd : c.dish restaurantId line.menuItemId with
  | none =>
    rw [hd] at h
    cases h
  | some m =>
    rw [hd] at h
    dsimp only at h
    by_cases ha : m.isAvailable
    · rw [if_pos ha] at h
      cases h
      exact ⟨rfl, ha⟩
    · rw [if_neg ha] at h
      cases h

/-- A dish that is loaded is found by its id. -/
theorem Catalog.Loaded.find (h : c.Loaded restaurantId known) {menuItemId : Uuid} (hm : menuItem ∈ known)
    (hd : c.dish restaurantId menuItemId = some menuItem) :
    (known.find? fun m => m.id == menuItemId) = some menuItem := by
  cases hf : known.find? fun m => m.id == menuItemId with
  | none =>
    have hne := List.find?_eq_none.mp hf menuItem hm
    rw [Catalog.dish_id hd] at hne
    simp at hne
  | some m =>
    have hid : m.id = menuItemId := by simpa using List.find?_some hf
    have hl := h m (List.mem_of_find?_eq_some hf)
    rw [hid, hd] at hl
    exact hl.symm

theorem Catalog.Loaded.getD (h : c.Loaded restaurantId known) {menuItemId : Uuid}
    (hd : c.dish restaurantId menuItemId = some menuItem) :
    (known.find? fun m => m.id == menuItem.id).getD menuItem = menuItem := by
  cases hf : known.find? fun m => m.id == menuItem.id with
  | none => rfl
  | some m =>
    have hid : m.id = menuItem.id := by simpa using List.find?_some hf
    have hl := h m (List.mem_of_find?_eq_some hf)
    rw [hid, Catalog.dish_id hd, hd] at hl
    exact (Option.some.inj hl).symm

/-- The `menu_items_map` after one more line. -/
def loadDish (known : List MenuItem) (menuItem : MenuItem) : List MenuItem :=
  if (known.find? fun m => m.id == menuItem.id).isSome then known else known ++ [menuItem]

theorem Catalog.Loaded.load (h : c.Loaded restaurantId known) {menuItemId : Uuid}
    (hd : c.dish restaurantId menuItemId = some menuItem) :
    c.Loaded restaurantId (loadDish known menuItem) ∧ menuItem ∈ loadDish known menuItem := by
  have hself : c.dish restaurantId menuItem.id = some menuItem := by rw [Catalog.dish_id hd, hd]
  unfold loadDish
  cases hf : known.find? fun m => m.id == menuItem.id with
  | none =>
    refine ⟨?_, by simp⟩
    intro m hm
    rcases List.mem_append.mp hm with hm | hm
    · exact h m hm
    · rw [List.mem_singleton.mp hm]
      exact hself
  | some m =>
    have hm := h.getD hd
    rw [hf] at hm
    rw [← show m = menuItem from hm]
    exact ⟨h, List.mem_of_find?_eq_some hf⟩

theorem subset_loadDish {m : MenuItem} (hm : m ∈ known) : m ∈ loadDish known menuItem := by
  unfold loadDish
  split
  · exact hm
  · exact List.mem_append_left _ hm

theorem Solo.validate_line (h : s.catalog.Loaded restaurantId known)
    (ha : s.catalog.accept restaurantId line = .ok menuItem) :
    s.run (Customer.validateItems restaurantId (line :: lines) known) =
      s.run (Customer.validateItems restaurantId lines (loadDish known menuItem)) := by
  obtain ⟨hd, havailable⟩ := Catalog.accept_ok ha
  have hq : (Query.menuItem line.menuItemId restaurantId).eval s.ctx s.catalog s.view = some menuItem := hd
  rw [Customer.validateItems, Solo.run_query hq]
  dsimp only
  rw [h.getD hd, if_pos havailable]
  rfl

theorem Solo.validate_refused (h : s.catalog.Loaded restaurantId known)
    (ha : s.catalog.accept restaurantId line = .error e) :
    s.run (Customer.validateItems restaurantId (line :: lines) known) = (.error e, s) := by
  unfold Catalog.accept at ha
  rw [Customer.validateItems]
  cases hd : s.catalog.dish restaurantId line.menuItemId with
  | none =>
    have hq : (Query.menuItem line.menuItemId restaurantId).eval s.ctx s.catalog s.view = none := hd
    rw [hd] at ha
    cases ha
    rw [Solo.run_query hq]
    rfl
  | some m =>
    have hq : (Query.menuItem line.menuItemId restaurantId).eval s.ctx s.catalog s.view = some m := hd
    rw [hd] at ha
    rw [Solo.run_query hq]
    dsimp only at ha ⊢
    rw [h.getD hd]
    by_cases havailable : m.isAvailable
    · rw [if_pos havailable] at ha
      cases ha
    · rw [if_neg havailable] at ha ⊢
      cases ha
      rfl

theorem Solo.validate_error (h : s.catalog.Loaded restaurantId known)
    (ha : lines.mapM (s.catalog.accept restaurantId) = .error e) :
    s.run (Customer.validateItems restaurantId lines known) = (.error e, s) := by
  induction lines generalizing known with
  | nil => cases ha
  | cons line lines ih =>
    rw [List.mapM_cons] at ha
    cases hline : s.catalog.accept restaurantId line with
    | error e' =>
      rw [hline] at ha
      cases ha
      exact Solo.validate_refused h hline
    | ok m =>
      rw [hline] at ha
      rw [Solo.validate_line h hline]
      refine ih (h.load (Catalog.accept_ok hline).1).1 ?_
      cases hlines : lines.mapM (s.catalog.accept restaurantId) with
      | error e' =>
        rw [hlines] at ha
        cases ha
        rfl
      | ok ms =>
        rw [hlines] at ha
        cases ha

theorem mapM_accept_cons {ms : List MenuItem} (ha : (line :: lines).mapM (c.accept restaurantId) = .ok ms) :
    ∃ m ms', ms = m :: ms' ∧ c.accept restaurantId line = .ok m ∧
      lines.mapM (c.accept restaurantId) = .ok ms' := by
  rw [List.mapM_cons] at ha
  cases hline : c.accept restaurantId line with
  | error e =>
    rw [hline] at ha
    cases ha
  | ok m =>
    cases hlines : lines.mapM (c.accept restaurantId) with
    | error e =>
      rw [hline, hlines] at ha
      cases ha
    | ok ms' =>
      rw [hline, hlines] at ha
      cases ha
      exact ⟨m, ms', rfl, rfl, rfl⟩

theorem Solo.validate_ok (h : s.catalog.Loaded restaurantId known)
    (ha : lines.mapM (s.catalog.accept restaurantId) = .ok menuItems) :
    ∃ known', s.run (Customer.validateItems restaurantId lines known) = (.ok known', s) ∧
      s.catalog.Loaded restaurantId known' ∧ (∀ m ∈ known, m ∈ known') ∧ ∀ m ∈ menuItems, m ∈ known' := by
  induction lines generalizing known menuItems with
  | nil =>
    cases ha
    exact ⟨known, rfl, h, fun _ hm => hm, by simp⟩
  | cons line lines ih =>
    obtain ⟨m, ms, rfl, hline, hlines⟩ := mapM_accept_cons ha
    obtain ⟨hload, hmem⟩ := h.load (Catalog.accept_ok hline).1
    obtain ⟨known', hrun, hloaded, hsub, hms⟩ := ih hload hlines
    refine ⟨known', ?_, hloaded, fun x hx => hsub x (subset_loadDish hx), ?_⟩
    · rw [Solo.validate_line h hline, hrun]
    · intro x hx
      rcases List.mem_cons.mp hx with rfl | hx
      · exact hsub x hmem
      · exact hms x hx

/-- Step g makes one row for each line, in the order of the lines. -/
theorem newItems_zip (h : c.Loaded restaurantId known)
    (ha : lines.mapM (c.accept restaurantId) = .ok menuItems) (hm : ∀ m ∈ menuItems, m ∈ known) :
    Customer.newItems restaurantId orderId now known lines =
      List.zipWith (Customer.newItem restaurantId orderId now) menuItems lines := by
  induction lines generalizing menuItems with
  | nil =>
    cases ha
    rfl
  | cons line lines ih =>
    obtain ⟨m, ms, rfl, hline, hlines⟩ := mapM_accept_cons ha
    have hfind := h.find (hm m List.mem_cons_self) (Catalog.accept_ok hline).1
    have hrest := ih hlines fun x hx => hm x (List.mem_cons_of_mem _ hx)
    rw [Customer.newItems] at hrest ⊢
    rw [List.filterMap_cons, hfind, hrest]
    rfl

end Lines

end QOrder
