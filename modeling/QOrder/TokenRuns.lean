import QOrder.TokenSessions

/-! Tokens over runs. The six endpoints accept the latest token of an active table and nothing
else, and the session of a table outlives its tokens. -/

namespace QOrder

open KeyedTable Concurrency

/-- The endpoints that resolve a token, each with its other arguments. -/
inductive TokenEndpoint
  | resolveQr
  | getSessionSnapshot
  | createOrder (body : CreateOrderRequest)
  | cancelItemCustomer (itemId : Uuid) (reason : Option String)
  | callStaff
  | wsCustomer

/-- The request of the ordering flow, for all but `resolve_qr`. -/
def TokenEndpoint.request (qrToken : String) : TokenEndpoint → Option Request
  | resolveQr => none
  | getSessionSnapshot => some (.getSessionSnapshot qrToken)
  | createOrder body => some (.createOrder qrToken body)
  | cancelItemCustomer itemId reason => some (.cancelItemCustomer qrToken itemId reason)
  | callStaff => some (.callStaff qrToken)
  | wsCustomer => some (.wsCustomer qrToken)

variable {n : Nat} {owner : Uuid → Uuid} {lib : AdminLibrary} {w : Moment}

/-- The answer of a request that has the house to itself. -/
def House.answer (h : House n) (w : Moment) (r : Request) : Except Exn Response :=
  r.response w h.clients.state.catalog h.clients.state.data

/-- The rows that it leaves. -/
def House.after (h : House n) (w : Moment) (r : Request) : Data :=
  r.effect w h.clients.state.catalog h.clients.state.data

def TokenEndpoint.Accepts (e : TokenEndpoint) (h : House n) (w : Moment) (qrToken : String) : Prop :=
  match e.request qrToken with
  | none => ∃ page, h.office.resolveQr qrToken = .ok page
  | some r => Accepted (h.answer w r)

/-- The token is the latest of the table, and the table and its restaurant are active. -/
structure House.Current (h : House n) (qrToken : String) (t : TableRecord) : Prop where
  mem : t ∈ h.office.tables
  latest : latestToken h.issued t.id = some qrToken
  active : t.isActive = true
  restaurant : ∃ r ∈ h.office.restaurants, r.id = t.restaurantId ∧ r.isActive = true

/-- An administrator replaces the token of a table. -/
inductive House.Regenerates (lib : AdminLibrary) (h : House n) : House n → Prop
  | intro (user : TokenPayload) (draws : Draws) (tableId : Uuid) (hf : h.office.Fresh draws)
      (hq : ∀ x ∈ h.issued, x.2 ≠ draws.qrToken) :
      Regenerates lib h (h.serveAdmin lib user draws (.regenerateQr tableId))

section Resolving

variable {h h' : House n} {qrToken : String} {t : TableRecord} {table : Table} {restaurant : Restaurant}

theorem TokenEndpoint.request_token {e : TokenEndpoint} {r : Request} (h : e.request qrToken = some r) :
    r.qrToken = some qrToken := by
  cases e <;> cases h <;> rfl

theorem House.Kept.current (hk : h.Kept) (hr : h.office.catalog.resolve qrToken = .ok (table, restaurant)) :
    ∃ t, h.Current qrToken t ∧ t.toTable = table := by
  obtain ⟨ht, hr⟩ := Catalog.resolve_ok_iff.mp hr
  rw [Office.activeTable_eq] at ht
  rw [Office.activeRestaurant_eq] at hr
  obtain ⟨t, hfind, rfl⟩ := Option.map_eq_some_iff.mp ht
  obtain ⟨r, hactive, -⟩ := Option.map_eq_some_iff.mp hr
  have hmem := List.mem_of_find?_eq_some hfind
  have hp := List.find?_some hfind
  have hp' := List.find?_some hactive
  simp only [Bool.and_eq_true, beq_iff_eq] at hp hp'
  refine ⟨t, ⟨hmem, ?_, hp.2, r, List.mem_of_find?_eq_some hactive, hp'⟩, rfl⟩
  rw [hk.issued.latest t hmem, hp.1]

/-- No two tables have one token. -/
theorem Office.Lawful.token_unique {o : Office} (h : o.Lawful) {t t' : TableRecord} (ht : t ∈ o.tables)
    (ht' : t' ∈ o.tables) (hq : t'.qrToken = t.qrToken) : t' = t := by
  by_contra hne
  have hid : t'.id ≠ t.id := fun he => hne (eq_of_key_eq h.tableIds ht' ht he)
  have hfree := Office.tableConflict_eq_false.mp (h.tables t ht) t' ht' hid
  exact hfree.1 hq

theorem House.Current.resolve (hc : h.Current qrToken t) (hk : h.Kept) :
    ∃ restaurant, h.office.catalog.resolve qrToken = .ok (t.toTable, restaurant) := by
  have hq : t.qrToken = qrToken := by
    have hlatest := hc.latest
    rw [hk.issued.latest t hc.mem] at hlatest
    exact Option.some.inj hlatest
  have hfind : (h.office.tables.find? fun t => t.qrToken == qrToken && t.isActive) = some t := by
    cases hf : h.office.tables.find? fun t => t.qrToken == qrToken && t.isActive with
    | none =>
      have hn := List.find?_eq_none.mp hf t hc.mem
      simp [hq, hc.active] at hn
    | some t' =>
      have hp := List.find?_some hf
      simp only [Bool.and_eq_true, beq_iff_eq] at hp
      rw [hk.lawful.token_unique hc.mem (List.mem_of_find?_eq_some hf) (hp.1.trans hq.symm)]
  obtain ⟨r, hr, hid, hactive⟩ := hc.restaurant
  have hsome : (h.office.restaurants.find? fun r => r.id == t.restaurantId && r.isActive).isSome := by
    rw [List.find?_isSome]
    exact ⟨r, hr, by simp [hid, hactive]⟩
  obtain ⟨r', hr'⟩ := Option.isSome_iff_exists.mp hsome
  refine ⟨⟨r'.id, r'.isActive⟩, Catalog.resolve_ok_iff.mpr ⟨?_, ?_⟩⟩
  · rw [Office.activeTable_eq, hfind]
    rfl
  · rw [Office.activeRestaurant_eq, hr']
    rfl

/-- The six resolutions agree. -/
theorem TokenEndpoint.accepts_iff (hk : h.Kept) (hd : h.clients.state.data.Ok owner) (e : TokenEndpoint) :
    e.Accepts h w qrToken ↔ ∃ t, h.Current qrToken t := by
  have hcurrent : (∃ t, h.Current qrToken t) ↔ ∃ resolved, h.office.catalog.resolve qrToken = .ok resolved := by
    constructor
    · rintro ⟨t, hc⟩
      obtain ⟨restaurant, hr⟩ := hc.resolve hk
      exact ⟨_, hr⟩
    · rintro ⟨⟨table, restaurant⟩, hr⟩
      obtain ⟨t, hc, -⟩ := hk.current hr
      exact ⟨t, hc⟩
  rw [hcurrent]
  unfold TokenEndpoint.Accepts
  cases hres : h.office.catalog.resolve qrToken with
  | error x =>
    refine ⟨fun ha => ?_, fun ⟨_, he⟩ => by cases he⟩
    cases he : e.request qrToken with
    | none =>
      rw [he] at ha
      obtain ⟨page, hpage⟩ := ha
      rw [Office.resolveQr_error hres] at hpage
      cases hpage
    | some r =>
      rw [he] at ha
      dsimp only at ha
      rw [House.answer, Request.response_solo, hk.synced] at ha
      exact absurd ha (Solo.run_unserved hres (request_token he))
  | ok resolved =>
    obtain ⟨table, restaurant⟩ := resolved
    refine ⟨fun _ => ⟨_, rfl⟩, fun _ => ?_⟩
    cases he : e.request qrToken with
    | none =>
      obtain ⟨page, hpage, -⟩ := Office.resolveQr_ok hres
      exact ⟨page, hpage⟩
    | some r =>
      dsimp only
      rw [House.answer, Request.response_solo, hk.synced]
      obtain ⟨_, _, -, hserved⟩ := Solo.run_served (s := w.solo h.office.catalog h.clients.state.data) rfl hd hres
        (request_token he)
      exact hserved.accepted

end Resolving

section Attaching

variable {h : House n} {qrToken : String} {t : TableRecord} {x : TableSession} {r : Request} {a : Response}

/-- The session that is open at the table is the one a request is attached to. -/
theorem House.Current.attends (hc : h.Current qrToken t) (hk : h.Kept) (hd : h.clients.state.data.Ok owner)
    (hx : x ∈ h.clients.state.data.sessions) (ht : x.tableId = t.id) (ho : x.status = .opened)
    (hq : r.qrToken = some qrToken) (ha : h.answer w r = .ok a) : Attends x.id (h.after w r) a := by
  obtain ⟨restaurant, hr⟩ := hc.resolve hk
  rw [House.answer, Request.response_solo, hk.synced] at ha
  rw [House.after, Request.effect_solo, hk.synced]
  obtain ⟨session, s₁, hopens, hserved⟩ :=
    Solo.run_served (s := w.solo h.office.catalog h.clients.state.data) rfl hd hr hq
  have hopen : x ∈ h.clients.state.data.openOn t.id := List.mem_filter.mpr ⟨hx, by simp [ht, ho]⟩
  rcases hopens.found with ⟨-, hone⟩ | ⟨-, hnone, -⟩
  · have hone' : h.clients.state.data.openOn t.id = [session] := hone
    rw [hone'] at hopen
    rw [List.mem_singleton.mp hopen]
    exact hserved.attends a ha
  · have hnone' : h.clients.state.data.openOn t.id = [] := hnone
    rw [hnone'] at hopen
    cases hopen

end Attaching

section Replacing

variable {user : TokenPayload} {draws : Draws} {o o' : Office} {l issued : List (Uuid × String)}
  {h h' : House n} {qrToken : String} {t : TableRecord}

theorem Office.Wrote.issues_new (hw : Office.Wrote user draws o l o') : ∀ x ∈ l, x.2 = draws.qrToken := by
  cases hw with
  | tableAdded row store hr hid hq hc => simpa using hq
  | tableRenewed t imageUrl store ht hr hc => simp
  | _ => simp

/-- A token that is not the latest of its table. -/
def House.Replaced (h : House n) (tableId : Uuid) (qrToken : String) : Prop :=
  (tableId, qrToken) ∈ h.issued ∧ latestToken h.issued tableId ≠ some qrToken

theorem latestToken_append {tableId : Uuid} : latestToken (l ++ issued) tableId =
    (latestToken l tableId).or (latestToken issued tableId) := by
  rw [latestToken, List.find?_append, Option.map_or]
  rfl

theorem mem_of_latestToken {tableId : Uuid} (h : latestToken l tableId = some qrToken) :
    (tableId, qrToken) ∈ l := by
  obtain ⟨x, hx, rfl⟩ := Option.map_eq_some_iff.mp h
  have hid : x.1 = tableId := by simpa using List.find?_some hx
  rw [← hid]
  exact List.mem_of_find?_eq_some hx

/-- A replaced token stays replaced. -/
theorem House.Replaced.step {tableId : Uuid} (hp : h.Replaced tableId qrToken) (hs : h.Step lib owner h') :
    h'.Replaced tableId qrToken := by
  cases hs with
  | client hs hc => exact hp
  | switch restaurantId isActive => exact hp
  | admin user draws r hf hq ho =>
    refine ⟨List.mem_append_right _ hp.1, ?_⟩
    change latestToken (r.issues (r.handle lib user draws h.office).1 ++ h.issued) tableId ≠ some qrToken
    rw [latestToken_append]
    cases hlatest : latestToken (r.issues (r.handle lib user draws h.office).1) tableId with
    | none => exact hp.2
    | some q =>
      have hnew := r.wrote.issues_new _ (mem_of_latestToken hlatest)
      intro he
      have hqq : q = qrToken := Option.some.inj he
      exact hq _ hp.1 (hqq ▸ hnew)

theorem House.Reaches.replaced {tableId : Uuid} (hr : House.Reaches lib owner h h')
    (hp : h.Replaced tableId qrToken) : h'.Replaced tableId qrToken := by
  induction hr with
  | refl => exact hp
  | tail _ hs ih => exact ih.step hs

/-- No table has a replaced token. -/
theorem House.Replaced.not_current {tableId : Uuid} (hp : h.Replaced tableId qrToken) (hk : h.Kept) :
    ¬ ∃ t, h.Current qrToken t := by
  rintro ⟨t, hc⟩
  have hmem := mem_of_latestToken hc.latest
  have hsame := List.inj_on_of_nodup_map hk.issued.once hmem hp.1 rfl
  have hid : t.id = tableId := congrArg Prod.fst hsame
  exact hp.2 (hid ▸ hc.latest)

theorem Office.regenerateQr_cases (o : Office) (lib : AdminLibrary) (user : TokenPayload) (draws : Draws)
    (tableId : Uuid) :
    (∃ e store, o.regenerateQr lib user draws tableId = (.error e, { o with store })) ∨
      ∃ t imageUrl store, t ∈ o.tables ∧ t.id = tableId ∧ o.regenerateQr lib user draws tableId =
        (.ok { t with qrToken := draws.qrToken, qrImageUrl := imageUrl },
          { o with
            tables := overlay o.tables [{ t with qrToken := draws.qrToken, qrImageUrl := imageUrl }], store }) := by
  unfold regenerateQr
  split
  next => exact .inl ⟨_, o.store, rfl⟩
  next t ht =>
    obtain ⟨hm, hid, -⟩ := ownTable_some ht
    split
    next => exact .inl ⟨_, o.store, rfl⟩
    next slug _ =>
      rcases o.saveWithQr_cases lib draws slug { t with qrToken := draws.qrToken } with
        ⟨e, store, h⟩ | ⟨imageUrl, store, -, h⟩
      · exact .inl ⟨e, store, h⟩
      · exact .inr ⟨t, imageUrl, store, hm, hid, h⟩

/-- The table goes on under its new token, with its session. -/
theorem House.Regenerates.current (hg : h.Regenerates lib h') (hk : h.Kept) (hc : h.Current qrToken t) :
    ∃ qrToken' t', t'.id = t.id ∧ h'.Current qrToken' t' := by
  cases hg with
  | intro user draws tableId hf hq =>
    rcases h.office.regenerateQr_cases lib user draws tableId with ⟨e, store, hrun⟩ | ⟨t₀, imageUrl, store, ht₀, hid, hrun⟩
    · refine ⟨qrToken, t, rfl, ?_⟩
      have hanswer : (AdminRequest.regenerateQr tableId).handle lib user draws h.office =
          (.error e, { h.office with store }) := by
        rw [AdminRequest.handle, hrun]
        rfl
      unfold serveAdmin
      rw [hanswer]
      exact ⟨hc.mem, hc.latest, hc.active, hc.restaurant⟩
    · have hanswer : (AdminRequest.regenerateQr tableId).handle lib user draws h.office =
          (.ok (.table { t₀ with qrToken := draws.qrToken, qrImageUrl := imageUrl }),
            { h.office with
              tables := overlay h.office.tables [{ t₀ with qrToken := draws.qrToken, qrImageUrl := imageUrl }]
              store }) := by
        rw [AdminRequest.handle, hrun]
        rfl
      have hkeys := hk.lawful.tableIds
      unfold serveAdmin
      rw [hanswer]
      by_cases he : t₀.id = t.id
      · obtain rfl : t₀ = t := eq_of_key_eq hkeys ht₀ hc.mem he
        refine ⟨draws.qrToken, { t₀ with qrToken := draws.qrToken, qrImageUrl := imageUrl }, rfl,
          (mem_overlay_one hkeys).mpr (.inl rfl), ?_, hc.active, hc.restaurant⟩
        exact latestToken_cons.trans (if_pos rfl)
      · refine ⟨qrToken, t, rfl, (mem_overlay_one hkeys).mpr (.inr ⟨hc.mem, Ne.symm he⟩), ?_, hc.active,
          hc.restaurant⟩
        exact (latestToken_cons.trans (if_neg he)).trans hc.latest

end Replacing

section Runs

variable {P : Premises owner} {req : Fin n → Request} {h h' : House n} {qrToken : String} {t : TableRecord}

abbrev House.Regenerations (lib : AdminLibrary) : House n → House n → Prop :=
  Relation.ReflTransGen (House.Regenerates lib)

theorem House.Regenerates.kept (hg : h.Regenerates lib h') (hk : h.Kept) : h'.Kept := by
  cases hg with
  | intro user draws tableId hf hq =>
    let r := AdminRequest.regenerateQr tableId
    exact ⟨rfl, r.wrote.lawful hk.lawful, r.wrote.issued hk.lawful hk.issued hq⟩

/-- The rows of the ordering flow are left alone, and a table that serves goes on serving. -/
theorem House.Regenerations.keeps (hg : House.Regenerations lib h h') (hk : h.Kept) :
    h'.Kept ∧ h'.clients.state.data = h.clients.state.data ∧
      ∀ qrToken t, h.Current qrToken t → ∃ qrToken' t', t'.id = t.id ∧ h'.Current qrToken' t' := by
  induction hg with
  | refl => exact ⟨hk, rfl, fun qrToken t hc => ⟨qrToken, t, rfl, hc⟩⟩
  | tail _ hs ih =>
    obtain ⟨hkept, hdata, hcurrent⟩ := ih
    refine ⟨hs.kept hkept, ?_, fun qrToken t hc => ?_⟩
    · cases hs
      exact hdata
    · obtain ⟨q₁, t₁, hid₁, hc₁⟩ := hcurrent qrToken t hc
      obtain ⟨q₂, t₂, hid₂, hc₂⟩ := hs.current hkept hc₁
      exact ⟨q₂, t₂, hid₂.trans hid₁, hc₂⟩

/-- The six endpoints accept the latest token of an active table in an active restaurant, and a
replaced token never again. Tokens are replaced without a change to the ordering flow, and under
the next token a request is attached to the session that was open before. -/
theorem tokens_resolve (hr : P.Reaches lib req h) :
    (∀ (qrToken : String) (e : TokenEndpoint) (w : Moment),
      e.Accepts h w qrToken ↔ ∃ t, h.Current qrToken t) ∧
    (∀ (tableId : Uuid) (qrToken : String) (h' : House n), h.Replaced tableId qrToken →
      House.Reaches lib owner h h' → ∀ (e : TokenEndpoint) (w : Moment), ¬ e.Accepts h' w qrToken) ∧
    ∀ h' : House n, House.Regenerations lib h h' →
      h'.clients.state.data = h.clients.state.data ∧
      ∀ (qrToken : String) (t : TableRecord), h.Current qrToken t →
        ∃ qrToken' t', t'.id = t.id ∧ h'.Current qrToken' t' ∧
          ∀ x ∈ h.clients.state.data.sessions, x.tableId = t.id → x.status = .opened →
            ∀ (w : Moment) (r : Request) (a : Response), r.qrToken = some qrToken' → h'.answer w r = .ok a →
              Attends x.id (h'.after w r) a := by
  have hd := hr.clients.inv.ok
  refine ⟨fun qrToken e w => e.accepts_iff hr.kept hd, fun tableId qrToken h' hp hr' e w ha => ?_,
    fun h' hg => ?_⟩
  · have hreach : P.Reaches lib req h' := hr.trans hr'
    have hcurrent := (e.accepts_iff hreach.kept hreach.clients.inv.ok).mp ha
    exact (hr'.replaced hp).not_current hreach.kept hcurrent
  · obtain ⟨hkept, hdata, hcurrent⟩ := hg.keeps hr.kept
    refine ⟨hdata, fun qrToken t hc => ?_⟩
    obtain ⟨qrToken', t', hid, hc'⟩ := hcurrent qrToken t hc
    refine ⟨qrToken', t', hid, hc', fun x hx ht ho w r a hq ha => ?_⟩
    rw [← hdata] at hx hd
    exact hc'.attends hkept hd hx (ht.trans hid.symm) ho hq ha

end Runs

section Cafe

def cafeHouse : House 1 := cafePremises.house fun _ => cafeOrder

def cafeRenewed : House 1 := cafeHouse.serveAdmin cafeLibrary cafeStaff cafeDraws (.regenerateQr 2)

/-- The token of the café's table is replaced. -/
theorem tokens_resolve_cafe : TokenEndpoint.resolveQr.Accepts cafeHouse cafe.moment "ban-1" ∧
    ¬ TokenEndpoint.resolveQr.Accepts cafeRenewed cafe.moment "ban-1" ∧
    cafeRenewed.clients.state.data = cafeHouse.clients.state.data := by
  have hr : cafePremises.Reaches cafeLibrary (fun _ : Fin 1 => cafeOrder) cafeHouse := .refl
  have howned : ((AdminRequest.regenerateQr 2).handle cafeLibrary cafeStaff cafeDraws cafeOffice).2.catalog.Owned
      fun _ => 1 := by
    unfold Catalog.Owned
    decide +kernel
  have hr' : cafePremises.Reaches cafeLibrary (fun _ : Fin 1 => cafeOrder) cafeRenewed :=
    .single (.admin cafeStaff cafeDraws (.regenerateQr 2) cafeDraws_fresh (by decide) howned)
  obtain ⟨haccept, -, hregenerate⟩ := tokens_resolve hr
  obtain ⟨-, hreplaced, -⟩ := tokens_resolve hr'
  refine ⟨(haccept "ban-1" .resolveQr cafe.moment).mpr ?_, ?_, ?_⟩
  · exact ⟨{ id := 2, restaurantId := 1, qrToken := "ban-1", tableNumber := "1" }, by decide, by decide, rfl, by decide⟩
  · exact hreplaced 2 "ban-1" cafeRenewed ⟨by decide +kernel, by decide +kernel⟩ .refl .resolveQr cafe.moment
  · exact (hregenerate cafeRenewed (.single (.intro cafeStaff cafeDraws 2 cafeDraws_fresh (by decide)))).1

end Cafe

end QOrder
