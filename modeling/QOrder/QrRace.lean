import QOrder.Interleaving
import QOrder.House

/-! Renewing a table's QR code, statement by statement. The picture of the new token is stored
under the table's one key before the token is committed, so the requests of several
administrators may store their pictures in one order and commit in the other. -/

namespace QOrder

open KeyedTable Concurrency

/-- The statements of `regenerate_qr`. -/
inductive QrStmt
  | selectTable (user : TokenPayload) (tableId : Uuid)
  | selectSlug (user : TokenPayload)
  | putObject (key : String) (data : Blob)
  /-- The flush and the commit. -/
  | saveToken (tableId : Uuid) (qrToken imageUrl : String)
  | refresh (tableId : Uuid)

abbrev QrStmt.Resp : QrStmt → Type
  | .selectTable _ _ => Option TableRecord
  | .selectSlug _ => Option String
  | .putObject _ _ | .saveToken _ _ _ => Unit
  | .refresh _ => TableRecord

abbrev QrAction := Prog QrStmt QrStmt.Resp MenuError MenuError

namespace QrAction

variable (lib : AdminLibrary) (user : TokenPayload) (tableId : Uuid) (qrToken : String)

def query (q : QrStmt) : QrAction q.Resp := Prog.call id q

/-- The picture of a token. -/
def picture (slug : String) : Blob := lib.makeQr (Office.buildQrUrl lib slug qrToken)

def commit : QrAction TableRecord := do
  let () ← query (.saveToken tableId qrToken (getPublicUrl lib.storage (qrKey tableId)))
  query (.refresh tableId)

def upload (slug : String) : QrAction TableRecord := do
  let () ← query (.putObject (qrKey tableId) (picture lib qrToken slug))
  commit lib tableId qrToken

def draw : Option TableRecord → QrAction TableRecord
  | none => throw Office.tableMissing
  | some table => do
    match ← query (.selectSlug user) with
    | none => throw Office.restaurantMissing
    | some slug => upload lib table.id qrToken slug

def regenerateQr : QrAction TableRecord := do
  let table ← query (.selectTable user tableId)
  draw lib user qrToken table

end QrAction

inductive QrEvent (n : Nat)
  | stored (t : Fin n)
  | committed (t : Fin n)

def QrEvent.storedBy {n : Nat} : QrEvent n → Option (Fin n)
  | .stored t => some t
  | .committed _ => none

def QrEvent.committedBy {n : Nat} : QrEvent n → Option (Fin n)
  | .stored _ => none
  | .committed t => some t

structure QrState (n : Nat) where
  office : Office
  history : List (QrEvent n) := []

namespace QrState

variable {n : Nat} (σ : QrState n)

/-- The request whose picture was stored last. -/
def lastStored : Option (Fin n) := (σ.history.filterMap QrEvent.storedBy).getLast?

/-- The request whose token was committed last. -/
def lastCommitted : Option (Fin n) := (σ.history.filterMap QrEvent.committedBy).getLast?

def put (t : Fin n) (key : String) (data : Blob) : QrState n where
  office := { σ.office with store := σ.office.store.putObject key data }
  history := σ.history ++ [.stored t]

def save (t : Fin n) (row : TableRecord) : QrState n where
  office := { σ.office with tables := overlay σ.office.tables [row] }
  history := σ.history ++ [.committed t]

/-- One statement of one request. -/
inductive Exec (t : Fin n) : (q : QrStmt) → QrState n → Except MenuError q.Resp → QrState n → Prop
  | selectTable (user : TokenPayload) (tableId : Uuid) (σ : QrState n) :
      Exec t (.selectTable user tableId) σ (.ok (σ.office.ownTable user tableId)) σ
  | selectSlug (user : TokenPayload) (σ : QrState n) :
      Exec t (.selectSlug user) σ (.ok (σ.office.getRestaurantSlug user)) σ
  | putObject (key : String) (data : Blob) (σ : QrState n) :
      Exec t (.putObject key data) σ (.ok ()) (σ.put t key data)
  /-- The object is stored, and the answer lost. -/
  | putUnanswered (key : String) (data : Blob) (σ : QrState n) :
      Exec t (.putObject key data) σ (.error .storage) (σ.put t key data)
  | saveToken {tableId : Uuid} {row : TableRecord} (qrToken imageUrl : String) (σ : QrState n)
      (hrow : lookup tableId σ.office.tables = some row)
      (hfree : σ.office.tableConflict { row with qrToken, qrImageUrl := some imageUrl } = false) :
      Exec t (.saveToken tableId qrToken imageUrl) σ (.ok ())
        (σ.save t { row with qrToken, qrImageUrl := some imageUrl })
  /-- The token is committed, and the answer lost. -/
  | saveUnanswered {tableId : Uuid} {row : TableRecord} (qrToken imageUrl : String) (σ : QrState n)
      (hrow : lookup tableId σ.office.tables = some row)
      (hfree : σ.office.tableConflict { row with qrToken, qrImageUrl := some imageUrl } = false) :
      Exec t (.saveToken tableId qrToken imageUrl) σ (.error .database)
        (σ.save t { row with qrToken, qrImageUrl := some imageUrl })
  | refresh {tableId : Uuid} {row : TableRecord} (σ : QrState n) (hrow : lookup tableId σ.office.tables = some row) :
      Exec t (.refresh tableId) σ (.ok row) σ
  /-- A statement may fail without effect. -/
  | fails (q : QrStmt) (σ : QrState n) (e : MenuError) : Exec t q σ (.error e) σ

end QrState

def qrMachine (n : Nat) : Machine (Fin n) (QrState n) QrStmt QrStmt.Resp MenuError where
  exec := QrState.Exec
  env _ _ := False

def Office.slugOf (o : Office) (restaurantId : Uuid) : Option String :=
  (o.restaurants.find? fun r => r.id == restaurantId).map fun r => r.slug

/-- The stored picture of the table is that of its committed token. -/
def Office.Pictured (lib : AdminLibrary) (o : Office) (tableId : Uuid) : Prop :=
  ∀ table, lookup tableId o.tables = some table → ∀ slug, o.slugOf table.restaurantId = some slug →
    o.store.objects (qrKey tableId) = some (QrAction.picture lib table.qrToken slug)

/-- A table of a restaurant, with the picture of its token in the store, and the requests to
renew the token, each with the token that it draws. -/
structure QrDesk (n : Nat) where
  lib : AdminLibrary
  office : Office
  table : TableRecord
  slug : String
  user : Fin n → TokenPayload
  qrToken : Fin n → String
  ids : UniqueKeys office.tables
  found : lookup table.id office.tables = some table
  slug_eq : office.slugOf table.restaurantId = some slug
  pictured : office.Pictured lib table.id

namespace QrDesk

variable {n : Nat} (desk : QrDesk n)

abbrev Clients (n : Nat) := Pool (Fin n) (QrState n) QrStmt QrStmt.Resp MenuError MenuError TableRecord

def start : Clients n where
  state := { office := desk.office }
  threads t := QrAction.regenerateQr desk.lib (desk.user t) desk.table.id (desk.qrToken t)

abbrev Reaches (p : Clients n) : Prop := (qrMachine n).Reachable desk.start p

/-- The token of a request, and the one from before all of them. -/
def tokenOf (t : Option (Fin n)) : String := t.elim desk.table.qrToken desk.qrToken

structure Inv (σ : QrState n) : Prop where
  ids : UniqueKeys σ.office.tables
  slug : σ.office.slugOf desk.table.restaurantId = some desk.slug
  row : ∃ row, lookup desk.table.id σ.office.tables = some row ∧
    row.restaurantId = desk.table.restaurantId ∧ row.qrToken = desk.tokenOf σ.lastCommitted
  object : σ.office.store.objects (qrKey desk.table.id) =
    some (QrAction.picture desk.lib (desk.tokenOf σ.lastStored) desk.slug)

/-- How far a request has come. -/
inductive Stage (t : Fin n) : QrAction TableRecord → Prop
  | begins : Stage t (QrAction.regenerateQr desk.lib (desk.user t) desk.table.id (desk.qrToken t))
  | draws (table : Option TableRecord)
      (h : ∀ row, table = some row → row.id = desk.table.id ∧ (desk.user t).restaurantId = desk.table.restaurantId) :
      Stage t (QrAction.draw desk.lib (desk.user t) (desk.qrToken t) table)
  | uploads : Stage t (QrAction.upload desk.lib desk.table.id (desk.qrToken t) desk.slug)
  | commits : Stage t (QrAction.commit desk.lib desk.table.id (desk.qrToken t))
  | refreshes : Stage t (QrAction.query (.refresh desk.table.id))
  | ended {a : QrAction TableRecord} (h : a.answer.isSome) : Stage t a

variable {desk} {σ σ' : QrState n} {t : Fin n}

theorem Inv.initial : desk.Inv { office := desk.office } where
  ids := desk.ids
  slug := desk.slug_eq
  row := ⟨desk.table, desk.found, rfl, rfl⟩
  object := desk.pictured _ desk.found _ desk.slug_eq

theorem Inv.put (h : desk.Inv σ) :
    desk.Inv (σ.put t (qrKey desk.table.id) (QrAction.picture desk.lib (desk.qrToken t) desk.slug)) where
  ids := h.ids
  slug := h.slug
  row := by
    have hcommitted : (σ.put t (qrKey desk.table.id)
        (QrAction.picture desk.lib (desk.qrToken t) desk.slug)).lastCommitted = σ.lastCommitted := by
      simp [QrState.lastCommitted, QrState.put, QrEvent.committedBy]
    rw [hcommitted]
    exact h.row
  object := by
    simp [QrState.lastStored, QrState.put, QrEvent.storedBy, ObjectStore.putObject, ObjectStore.replace, tokenOf]

theorem Inv.save (h : desk.Inv σ) {row : TableRecord} (hrow : lookup desk.table.id σ.office.tables = some row)
    (imageUrl : Option String) :
    desk.Inv (σ.save t { row with qrToken := desk.qrToken t, qrImageUrl := imageUrl }) where
  ids := uniqueKeys_overlay h.ids (uniqueKeys_singleton _)
  slug := h.slug
  row := by
    obtain ⟨row', hrow', hr, -⟩ := h.row
    have hid : row.id = desk.table.id := key_of_lookup hrow
    refine ⟨{ row with qrToken := desk.qrToken t, qrImageUrl := imageUrl }, ?_, ?_, ?_⟩
    · simp [QrState.save, lookup_singleton, hid]
    · exact (congrArg (fun r : TableRecord => r.restaurantId) (Option.some.inj (hrow.symm.trans hrow'))).trans hr
    · simp [QrState.lastCommitted, QrState.save, QrEvent.committedBy, tokenOf]
  object := by
    have hstored : (σ.save t { row with qrToken := desk.qrToken t, qrImageUrl := imageUrl }).lastStored =
        σ.lastStored := by
      simp [QrState.lastStored, QrState.save, QrEvent.storedBy]
    rw [hstored]
    exact h.object

/-- What a step of one request keeps. -/
theorem Stage.step {a : QrAction TableRecord} (hs : desk.Stage t a) (hi : desk.Inv σ) {q : QrStmt}
    {k : Except MenuError q.Resp → QrAction TableRecord} {r : Except MenuError q.Resp} (ha : a = .stmt q k)
    (hx : QrState.Exec t q σ r σ') : desk.Stage t (k r) ∧ desk.Inv σ' := by
  cases hs with
  | begins =>
    cases ha
    cases hx with
    | selectTable =>
      refine ⟨.draws _ fun row hown => ?_, hi⟩
      obtain ⟨hm, hid, hr⟩ := Office.ownTable_some hown
      obtain ⟨row', hrow', hr', -⟩ := hi.row
      have hrow := lookup_of_mem hi.ids hm
      rw [key_tableRecord, hid, hrow'] at hrow
      cases hrow
      exact ⟨hid, hr.symm.trans hr'⟩
    | fails => exact ⟨.ended rfl, hi⟩
  | draws table h =>
    cases table with
    | none => cases ha
    | some table =>
      cases ha
      obtain ⟨hid, hr⟩ := h table rfl
      cases hx with
      | selectSlug =>
        have hslug : σ.office.getRestaurantSlug (desk.user t) = some desk.slug := by
          rw [← hi.slug, ← hr]
          rfl
        rw [hslug, hid]
        exact ⟨.uploads, hi⟩
      | fails => exact ⟨.ended rfl, hi⟩
  | uploads =>
    cases ha
    cases hx with
    | putObject => exact ⟨.commits, hi.put⟩
    | putUnanswered => exact ⟨.ended rfl, hi.put⟩
    | fails => exact ⟨.ended rfl, hi⟩
  | commits =>
    cases ha
    cases hx with
    | saveToken _ _ _ hrow hfree => exact ⟨.refreshes, hi.save hrow _⟩
    | saveUnanswered _ _ _ hrow hfree => exact ⟨.ended rfl, hi.save hrow _⟩
    | fails => exact ⟨.ended rfl, hi⟩
  | refreshes =>
    cases ha
    cases hx with
    | refresh hrow => exact ⟨.ended rfl, hi⟩
    | fails => exact ⟨.ended rfl, hi⟩
  | ended h =>
    rw [ha] at h
    cases h

theorem Reaches.inv {p : Clients n} (hr : desk.Reaches p) :
    desk.Inv p.state ∧ ∀ t, desk.Stage t (p.threads t) := by
  induction hr with
  | refl => exact ⟨.initial, fun _ => .begins⟩
  | tail _ hstep ih =>
    cases hstep with
    | env he => exact he.elim
    | @exec u q k r σ hp hx =>
      obtain ⟨hstage, hi⟩ := (ih.2 u).step ih.1 hp hx
      refine ⟨hi, fun t => ?_⟩
      by_cases ht : t = u
      · subst ht
        simpa only [Function.update_self] using hstage
      · simpa only [Function.update_of_ne ht] using ih.2 t

theorem Inv.pictured_iff (h : desk.Inv σ) : σ.office.Pictured desk.lib desk.table.id ↔
    QrAction.picture desk.lib (desk.tokenOf σ.lastStored) desk.slug =
      QrAction.picture desk.lib (desk.tokenOf σ.lastCommitted) desk.slug := by
  obtain ⟨row, hrow, hr, htoken⟩ := h.row
  constructor
  · intro hp
    have hobject := hp row hrow desk.slug (hr ▸ h.slug)
    rw [h.object, htoken] at hobject
    exact Option.some.inj hobject
  · intro he table htable slug hslug
    cases hrow.symm.trans htable
    rw [hr, h.slug] at hslug
    cases hslug
    rw [h.object, he, htoken]

theorem picture_inj {lib : AdminLibrary} (hlib : Function.Injective lib.makeQr) {slug q q' : String}
    (h : QrAction.picture lib q slug = QrAction.picture lib q' slug) : q = q' := by
  have hurl := congrArg String.toList (hlib h)
  simp only [Office.buildQrUrl, String.toList_append] at hurl
  exact String.toList_inj.mp (List.append_cancel_left hurl)

theorem tokenOf_inj (hinj : Function.Injective desk.qrToken) (hnew : ∀ t, desk.qrToken t ≠ desk.table.qrToken) :
    Function.Injective desk.tokenOf := by
  intro a b h
  cases a with
  | none =>
    cases b with
    | none => rfl
    | some t => exact absurd h.symm (hnew t)
  | some t =>
    cases b with
    | none => exact absurd h (hnew t)
    | some u => exact congrArg some (hinj h)

/-- The stored picture is that of the committed token exactly if the request that stored its
picture last is the one that committed last. -/
theorem picture_current {p : Clients n} (hr : desk.Reaches p) :
    (p.state.lastStored = p.state.lastCommitted → p.state.office.Pictured desk.lib desk.table.id) ∧
      (Function.Injective desk.lib.makeQr → Function.Injective desk.qrToken →
        (∀ t, desk.qrToken t ≠ desk.table.qrToken) → p.state.office.Pictured desk.lib desk.table.id →
          p.state.lastStored = p.state.lastCommitted) := by
  obtain ⟨hi, -⟩ := Reaches.inv hr
  rw [hi.pictured_iff]
  constructor
  · intro h
    rw [h]
  · intro hlib hinj hnew h
    exact tokenOf_inj hinj hnew (picture_inj hlib h)

end QrDesk

section Alone

variable {n : Nat} {lib : AdminLibrary} {user : TokenPayload} {draws : Draws} {o : Office}

/-- The statements of a request that nobody disturbs. -/
def QrState.perform (c : Conditions) (t : Fin n) : (q : QrStmt) → QrState n → Except MenuError q.Resp × QrState n
  | .selectTable user tableId, σ => (.ok (σ.office.ownTable user tableId), σ)
  | .selectSlug user, σ => (.ok (σ.office.getRestaurantSlug user), σ)
  | .putObject key data, σ =>
    match c.put key with
    | .stored => (.ok (), σ.put t key data)
    | .unanswered => (.error .storage, σ.put t key data)
    | .failed => (.error .storage, σ)
  | .saveToken tableId qrToken imageUrl, σ =>
    match lookup tableId σ.office.tables with
    | none => (.error .database, σ)
    | some row =>
      if !σ.office.tableConflict { row with qrToken, qrImageUrl := some imageUrl } && c.commits then
        (.ok (), σ.save t { row with qrToken, qrImageUrl := some imageUrl })
      else (.error .database, σ)
  | .refresh tableId, σ =>
    match lookup tableId σ.office.tables with
    | none => (.error .database, σ)
    | some row => (.ok row, σ)

theorem QrState.perform_exec (c : Conditions) (t : Fin n) (q : QrStmt) (σ : QrState n) :
    Exec t q σ (perform c t q σ).1 (perform c t q σ).2 := by
  cases q with
  | selectTable user tableId => exact .selectTable user tableId σ
  | selectSlug user => exact .selectSlug user σ
  | putObject key data =>
    simp only [perform]
    cases c.put key with
    | stored => exact .putObject key data σ
    | unanswered => exact .putUnanswered key data σ
    | failed => exact .fails _ σ _
  | saveToken tableId qrToken imageUrl =>
    simp only [perform]
    cases hrow : lookup tableId σ.office.tables with
    | none => exact .fails _ σ _
    | some row =>
      dsimp only
      split
      next h =>
        simp only [Bool.and_eq_true, Bool.not_eq_true'] at h
        exact .saveToken qrToken imageUrl σ hrow h.1
      next => exact .fails _ σ _
  | refresh tableId =>
    simp only [perform]
    cases hrow : lookup tableId σ.office.tables with
    | none => exact .fails _ σ _
    | some row => exact .refresh σ hrow

section Schedules

/-- A request executes its next statement. -/
def QrDesk.turn (c : Conditions) (p : QrDesk.Clients n) (t : Fin n) : QrDesk.Clients n :=
  match p.threads t with
  | .stmt q k => ⟨(QrState.perform c t q p.state).2, Function.update p.threads t (k (QrState.perform c t q p.state).1)⟩
  | .ret _ | .raise _ => p

def QrDesk.play (c : Conditions) (turns : List (Fin n)) (p : QrDesk.Clients n) : QrDesk.Clients n :=
  turns.foldl (turn c) p

theorem QrDesk.reachable_play (c : Conditions) (turns : List (Fin n)) (p : QrDesk.Clients n) :
    (qrMachine n).Reachable p (play c turns p) := by
  induction turns generalizing p with
  | nil => exact .refl
  | cons t turns ih =>
    have hrest := ih (turn c p t)
    cases hp : p.threads t with
    | stmt q k =>
      have hturn : turn c p t =
          ⟨(QrState.perform c t q p.state).2, Function.update p.threads t (k (QrState.perform c t q p.state).1)⟩ := by
        simp only [turn, hp]
      rw [hturn] at hrest
      rw [play, List.foldl_cons, hturn]
      exact .head (.exec hp (QrState.perform_exec c t q p.state)) hrest
    | ret a | raise e =>
      have hturn : turn c p t = p := by simp only [turn, hp]
      rw [hturn] at hrest
      rw [play, List.foldl_cons, hturn]
      exact hrest

end Schedules

theorem QrAction.run_ok {α : Type} {step : (q : QrStmt) → QrState n → Except MenuError q.Resp × QrState n}
    {q : QrStmt} {f : q.Resp → QrAction α} {σ σ' : QrState n} {a : q.Resp} (h : step q σ = (.ok a, σ')) :
    (query q >>= f).run step σ = (f a).run step σ' := by
  simp only [query, Prog.call, Prog.stmt_bind, Prog.run, h, Prog.ret_bind]

theorem QrAction.run_error {α : Type} {step : (q : QrStmt) → QrState n → Except MenuError q.Resp × QrState n}
    {q : QrStmt} {f : q.Resp → QrAction α} {σ σ' : QrState n} {e : MenuError} (h : step q σ = (.error e, σ')) :
    (query q >>= f).run step σ = (.error e, σ') := by
  simp only [query, Prog.call, Prog.stmt_bind, Prog.run, h, Prog.raise_bind]
  rfl

/-- The commit of a request that nobody disturbs. -/
theorem QrAction.run_commit {c : Conditions} {t : Fin n} {σ : QrState n} {row : TableRecord} {qrToken : String}
    (hrow : lookup row.id σ.office.tables = some row) :
    ((commit lib row.id qrToken).run (QrState.perform c t) σ).1 =
        (σ.office.saveTable ⟨c, 0, qrToken⟩
          { row with qrToken, qrImageUrl := some (getPublicUrl lib.storage (qrKey row.id)) }).1 ∧
      ((commit lib row.id qrToken).run (QrState.perform c t) σ).2.office =
        (σ.office.saveTable ⟨c, 0, qrToken⟩
          { row with qrToken, qrImageUrl := some (getPublicUrl lib.storage (qrKey row.id)) }).2 := by
  unfold commit Office.saveTable
  split
  next h =>
    have hsave : QrState.perform c t (.saveToken row.id qrToken (getPublicUrl lib.storage (qrKey row.id))) σ =
        (.ok (), σ.save t { row with qrToken, qrImageUrl := some (getPublicUrl lib.storage (qrKey row.id)) }) := by
      simp only [QrState.perform, hrow, h, if_true]
    have hrefresh : QrState.perform c t (.refresh row.id)
        (σ.save t { row with qrToken, qrImageUrl := some (getPublicUrl lib.storage (qrKey row.id)) }) =
          (.ok { row with qrToken, qrImageUrl := some (getPublicUrl lib.storage (qrKey row.id)) },
            σ.save t { row with qrToken, qrImageUrl := some (getPublicUrl lib.storage (qrKey row.id)) }) := by
      simp [QrState.perform, QrState.save, lookup_singleton]
    rw [run_ok hsave, ← bind_pure (query _), run_ok hrefresh]
    exact ⟨rfl, rfl⟩
  next h =>
    have hsave : QrState.perform c t (.saveToken row.id qrToken (getPublicUrl lib.storage (qrKey row.id))) σ =
        (.error .database, σ) := by
      simp only [QrState.perform, hrow, h]
      rfl
    rw [run_error hsave]
    exact ⟨rfl, rfl⟩

/-- Undisturbed, the statements do what the request does at once. -/
theorem QrAction.run_regenerateQr (hids : UniqueKeys o.tables) (t : Fin n) (tableId : Uuid) (history : List (QrEvent n)) :
    ((regenerateQr lib user tableId draws.qrToken).run (QrState.perform draws.conditions t) ⟨o, history⟩).1 =
        (o.regenerateQr lib user draws tableId).1 ∧
      ((regenerateQr lib user tableId draws.qrToken).run (QrState.perform draws.conditions t) ⟨o, history⟩).2.office =
        (o.regenerateQr lib user draws tableId).2 := by
  unfold regenerateQr Office.regenerateQr
  rw [run_ok (a := o.ownTable user tableId) rfl]
  cases hown : o.ownTable user tableId with
  | none => exact ⟨rfl, rfl⟩
  | some table =>
    obtain ⟨hm, -, -⟩ := Office.ownTable_some hown
    have hrow : lookup table.id o.tables = some table := lookup_of_mem hids hm
    unfold draw
    rw [run_ok (a := o.getRestaurantSlug user) rfl]
    cases hslug : o.getRestaurantSlug user with
    | none => exact ⟨rfl, rfl⟩
    | some slug =>
      simp only [upload, Office.saveWithQr, uploadFile]
      cases hput : draws.conditions.put (qrKey table.id) with
      | failed =>
        have hfailed : QrState.perform draws.conditions t (.putObject (qrKey table.id) (picture lib draws.qrToken slug))
            ⟨o, history⟩ = (.error .storage, ⟨o, history⟩) := by
          simp [QrState.perform, hput]
        rw [run_error hfailed]
        exact ⟨rfl, rfl⟩
      | unanswered =>
        have hunanswered : QrState.perform draws.conditions t (.putObject (qrKey table.id) (picture lib draws.qrToken slug))
            ⟨o, history⟩ = (.error .storage,
              QrState.put ⟨o, history⟩ t (qrKey table.id) (picture lib draws.qrToken slug)) := by
          simp only [QrState.perform, hput]
        rw [run_error hunanswered]
        exact ⟨rfl, rfl⟩
      | stored =>
        have hstored : QrState.perform draws.conditions t (.putObject (qrKey table.id) (picture lib draws.qrToken slug))
            ⟨o, history⟩ = (.ok (), QrState.put ⟨o, history⟩ t (qrKey table.id) (picture lib draws.qrToken slug)) := by
          simp only [QrState.perform, hput]
        rw [run_ok hstored]
        exact run_commit hrow

/-- A request that succeeds leaves the picture of the token that it saves. -/
theorem saveWithQr_pictured {slug : String} {row row' : TableRecord} {o' : Office}
    (hslug : o.slugOf row.restaurantId = some slug) (h : o.saveWithQr lib draws slug row = (.ok row', o')) :
    row'.id = row.id ∧ o'.Pictured lib row.id := by
  unfold Office.saveWithQr uploadFile at h
  cases hput : draws.conditions.put (qrKey row.id) with
  | failed | unanswered => simp [hput] at h
  | stored =>
    simp only [hput] at h
    rcases Office.saveTable_cases { o with
        store := o.store.putObject (qrKey row.id) (lib.makeQr (Office.buildQrUrl lib slug row.qrToken)) } draws
        { row with qrImageUrl := some (getPublicUrl lib.storage (qrKey row.id)) } with he | ⟨-, he⟩
    · simp [he] at h
    · rw [he] at h
      cases h
      refine ⟨rfl, fun table htable slug' hslug' => ?_⟩
      simp only [lookup_overlay, lookup_singleton, key_tableRecord, if_true, Option.some_or, Option.some.injEq] at htable
      subst htable
      cases hslug.symm.trans hslug'
      exact Function.update_self ..

/-- A new table has the picture of its token. -/
theorem createTable_pictured {body : TableCreate} {row : TableRecord} {o' : Office}
    (h : o.createTable lib user draws body = (.ok row, o')) : o'.Pictured lib row.id := by
  unfold Office.createTable at h
  cases hslug : o.getRestaurantSlug user with
  | none => simp [hslug] at h
  | some slug =>
    simp only [hslug] at h
    split at h
    next => simp at h
    next =>
      obtain ⟨hid, hpictured⟩ := saveWithQr_pictured (show o.slugOf user.restaurantId = some slug from hslug) h
      rw [hid]
      exact hpictured

end Alone

/-- No request is in progress. -/
def QrDesk.Idle {n : Nat} (desk : QrDesk n) (p : QrDesk.Clients n) : Prop :=
  ∀ t, p.threads t = desk.start.threads t ∨ (p.threads t).answer.isSome

section Cafe

def cafeTable : TableRecord := { id := 2, restaurantId := 1, qrToken := "ban-1", tableNumber := "1" }

/-- The café's rows, with the picture of the table's token. -/
def cafePictured : Office :=
  { cafeOffice with
    store := { objects := fun key =>
      if key = qrKey 2 then some (QrAction.picture cafeLibrary "ban-1" "cafe") else none } }

theorem cafePictured_pictured : cafePictured.Pictured cafeLibrary 2 := by
  intro table htable slug hslug
  cases htable
  cases hslug
  change (if qrKey 2 = qrKey 2 then some (QrAction.picture cafeLibrary "ban-1" "cafe") else none) = _
  rw [if_pos rfl]

/-- One request to renew the token of the café's table. -/
def cafeDesk : QrDesk 1 where
  lib := cafeLibrary
  office := cafePictured
  table := cafeTable
  slug := "cafe"
  user _ := cafeStaff
  qrToken _ := "ban-moi"
  ids := cafeOffice_lawful.tableIds
  found := rfl
  slug_eq := rfl
  pictured := cafePictured_pictured

/-- The request alone, under the conditions. -/
def cafeDesk.served (c : Conditions) : Except MenuError TableRecord × QrState 1 :=
  (QrAction.regenerateQr cafeLibrary cafeStaff 2 "ban-moi").run (QrState.perform c 0) { office := cafeDesk.office }

theorem cafeDesk.reaches (c : Conditions) : ∃ p : QrDesk.Clients 1, cafeDesk.Reaches p ∧ p.state = (served c).2 ∧
    ∀ t, (p.threads t).answer = some (served c).1 := by
  have hrun := Machine.reachable_run (M := qrMachine 1) (t := (0 : Fin 1)) (QrState.perform_exec c (0 : Fin 1))
    (QrAction.regenerateQr cafeLibrary cafeStaff 2 "ban-moi") { office := cafeDesk.office }
    fun _ => QrAction.regenerateQr cafeLibrary cafeStaff 2 "ban-moi"
  have hupd (b : QrAction TableRecord) : Function.update (fun _ : Fin 1 =>
      QrAction.regenerateQr cafeLibrary cafeStaff 2 "ban-moi") 0 b = fun _ => b := by
    funext t
    rw [Subsingleton.elim t 0, Function.update_self]
  rw [hupd, hupd] at hrun
  refine ⟨_, hrun, rfl, fun t => ?_⟩
  unfold served
  cases (Prog.run (QrState.perform c (0 : Fin 1)) (QrAction.regenerateQr cafeLibrary cafeStaff 2 "ban-moi")
    { office := cafeDesk.office }).1 <;> rfl

/-- Two administrators renew the token. -/
def cafeRenewals : QrDesk 2 where
  lib := cafeLibrary
  office := cafePictured
  table := cafeTable
  slug := "cafe"
  user _ := cafeStaff
  qrToken t := if t.val = 0 then "ban-moi" else "ban-hai"
  ids := cafeOffice_lawful.tableIds
  found := rfl
  slug_eq := rfl
  pictured := cafePictured_pictured

/-- Both begin and store their pictures, statement by statement in turn, and commit as given. -/
def cafeRenewals.turns (commits : List (Fin 2)) : List (Fin 2) := List.finRange 2 ++ List.finRange 2 ++ List.finRange 2 ++ commits

theorem cafeRenewals.reaches (commits : List (Fin 2)) :
    cafeRenewals.Reaches (QrDesk.play fairWeather (turns commits) cafeRenewals.start) :=
  QrDesk.reachable_play ..

/-- The requests interleave; they store in one order, and commit in the same or in the other. -/
theorem picture_current_cafe : ∃ p p' : QrDesk.Clients 2, cafeRenewals.Reaches p ∧ cafeRenewals.Reaches p' ∧
    p.state.history = [.stored 0, .stored 1, .committed 0, .committed 1] ∧ p.state.office.Pictured cafeLibrary 2 ∧
    p'.state.history = [.stored 0, .stored 1, .committed 1, .committed 0] ∧ ¬ p'.state.office.Pictured cafeLibrary 2 := by
  have hr := cafeRenewals.reaches [0, 1]
  have hr' := cafeRenewals.reaches [1, 0]
  refine ⟨_, _, hr, hr', rfl, (QrDesk.picture_current hr).1 rfl, rfl, fun hpictured => ?_⟩
  have hobject : some (QrAction.picture cafeLibrary "ban-hai" "cafe") =
      some (QrAction.picture cafeLibrary "ban-moi" "cafe") :=
    hpictured { cafeTable with qrToken := "ban-moi", qrImageUrl := some (getPublicUrl assets (qrKey 2)) } rfl "cafe" rfl
  exact absurd hobject (by decide +kernel)

/-- The new picture is stored, and the commit fails. -/
theorem picture_current_fails : ¬ ∀ (n : Nat) (desk : QrDesk n) (p : QrDesk.Clients n), desk.Reaches p →
    desk.Idle p → p.state.office.Pictured desk.lib desk.table.id := by
  intro h
  obtain ⟨p, hr, hstate, hanswer⟩ := cafeDesk.reaches { fairWeather with commits := false }
  have hpictured := h 1 cafeDesk p hr fun t => .inr (by rw [hanswer]; rfl)
  rw [hstate] at hpictured
  have hobject : some (QrAction.picture cafeLibrary "ban-moi" "cafe") =
      some (QrAction.picture cafeLibrary "ban-1" "cafe") :=
    hpictured cafeTable rfl "cafe" rfl
  exact absurd hobject (by decide +kernel)

end Cafe

end QOrder
