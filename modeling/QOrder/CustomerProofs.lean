import QOrder.OrderProofs

/-! The customer's endpoints and the staff calls, from the token to the answer. -/

namespace QOrder

open KeyedTable Concurrency

variable {n : Nat} {owner : Uuid → Uuid} {req : Fin n → Request} {d₀ d : Data} {σ : Sys n}
  {t : Fin n} {h : Holding} {l l' : List (Event n)} {α : Type} {tableId : Uuid}
  {qrToken : String} {good : α → List (Event n) → Prop}

theorem CustomerPost.error {e : Exn} (he : e.Ordinary) :
    CustomerPost qrToken good (.error e) .nothing l := ⟨rfl, .inl he⟩

namespace Triple

variable {post : Except Exn α → Holding → List (Event n) → Prop}

theorem resolve {f : Table × Restaurant → Action α}
    (hok : ∀ l' table restaurant, commitsOf l' = [] → Resolved qrToken table.id l' →
      restaurant.id = owner table.id →
      Triple owner req d₀ t .nothing l' (f (table, restaurant)) (CustomerPost qrToken good)) :
    Triple owner req d₀ t .nothing [] (Customer.resolveTable qrToken >>= f)
      (CustomerPost qrToken good) :=
  resolveTable (fun l' table restaurant hq hres hown => hok l' table restaurant hq.commitsOf hres hown)
    fun _ _ _ he => .error he

theorem getOrOpenFor {restaurantId : Uuid} {f : SessionService.Opened → Action α}
    (hl : commitsOf l = []) (hres : Resolved qrToken tableId l) (hown : restaurantId = owner tableId)
    (hok : ∀ l' opened, Resolved qrToken tableId l' → SeenOpen tableId opened.session.id l' →
      opened.session.tableId = tableId →
      (∃ e ∈ l', e.loads opened.session.id = some opened.session) →
      Triple owner req d₀ t .nothing l' (f opened) (CustomerPost qrToken good)) :
    Triple owner req d₀ t .nothing l (SessionService.getOrOpen tableId restaurantId none >>= f)
      (CustomerPost qrToken good) := by
  refine (getOrOpen hown hl).bind ?_ ?_
  · rintro opened h' l' ⟨rfl, hext, hseen, ht, hload⟩
    exact hok l' opened (hres.ext hext) hseen ht hload
  · rintro e h' l' ⟨rfl, hext, he⟩
    exact ⟨rfl, he.imp_right fun hh => ⟨hh.1, tableId, hres.ext hext, hh.2⟩⟩

theorem getSessionSnapshot : Triple owner req d₀ t .nothing []
    (Customer.getSessionSnapshot qrToken) (CustomerPost qrToken fun (a : TableSession × List OrderItem) l' =>
      ∃ tableId, Resolved qrToken tableId l' ∧ MetOpen tableId a.1.id l' ∧ a.1.tableId = tableId) := by
  unfold Customer.getSessionSnapshot
  refine resolve fun l table restaurant hl hres hown => ?_
  refine getOrOpenFor hl hres hown fun l' opened hres' hseen ht _ => ?_
  refine query fun σ hi ha => ⟨_, ha, ?_⟩
  exact .ret ⟨rfl, table.id, hres'.append _, hseen.met.ext (by simp), ht⟩

theorem wsCustomer : Triple owner req d₀ t .nothing [] (Gateway.wsCustomer qrToken)
    (CustomerPost qrToken fun (a : Option Channel) l' => ∀ c ∈ a, ∃ tableId k,
      Resolved qrToken tableId l' ∧ MetOpen tableId k l' ∧ c = .session (owner tableId) k) := by
  simp only [Gateway.wsCustomer, Gateway.resolveQrToken, bind_assoc]
  refine query fun σ hi ha => ⟨_, ha, ?_⟩
  rw [Query.eval]
  cases htab : σ.catalog.activeTable qrToken with
  | none => exact .ret ⟨rfl, by simp⟩
  | some table =>
    simp only [bind_assoc]
    refine query fun σ₁ hi₁ ha₁ => ⟨_, ha₁, ?_⟩
    rw [Query.eval]
    cases hres : σ₁.catalog.restaurants.find? fun r => r.id == table.restaurantId && r.isActive with
    | none => exact .ret ⟨rfl, by simp⟩
    | some restaurant =>
      have hown : restaurant.id = owner table.id := by
        have hp := List.find?_some hres
        simp only [Bool.and_eq_true, beq_iff_eq] at hp
        exact hp.1.trans (hi.owned table (List.mem_of_find?_eq_some htab))
      simp only [Prog.pure_def, Prog.ret_bind]
      refine getOrOpenFor rfl (?_ : Resolved qrToken table.id _) hown fun l' opened hres' hseen ht _ => ?_
      · exact Resolved.append ⟨_, List.mem_append_right _ List.mem_cons_self, rfl, table, htab, rfl⟩ _
      · refine .ret ⟨rfl, ?_⟩
        rintro c ⟨⟩
        exact ⟨table.id, opened.session.id, hres', hseen.met, by rw [hown]⟩

theorem createOrder {body : CreateOrderRequest} (hreq : req t = .createOrder qrToken body) :
    Triple owner req d₀ t .nothing [] (Customer.createOrder qrToken body)
      (CustomerPost qrToken fun a l' =>
        ∃ tableId, Resolved qrToken tableId l' ∧ MetOpen tableId a.tableSessionId l') := by
  unfold Customer.createOrder
  refine resolve fun l table restaurant hl hres hown => ?_
  refine getOrOpenFor hl hres hown fun l' opened hres' hseen ht ⟨e₀, he₀, hs₀⟩ => ?_
  split
  · exact .raise (.error trivial)
  rename_i hopen
  refine readAttribute ?_ (.error trivial)
  refine validateItems (fun l₁ menuItems hq _ hcov => ?_) fun l₁ e _ he => .error he
  refine placeOrder hreq (hq.seenOpen hseen) ⟨e₀, hq.ext.subset he₀, hs₀⟩ (by simpa using hopen) hown hcov body.items_ne_nil
    (fun order items l₂ hext hp hne hk hrid => ?_) fun e l₂ _ => .error trivial
  obtain ⟨e, he, ho, hm⟩ := hp.rows
  refine query fun σ hi ha => ⟨_, ha, ?_⟩
  rw [ha.view_nothing, Query.eval, (hi.own_grows ha he).order ho]
  simp only [Action.scalarOne, Prog.pure_def, Prog.ret_bind]
  refine refreshItems ⟨e, List.mem_append_left _ he, hm⟩ fun l₃ items' hq' hids => ?_
  have hl₂ : l₂ <+: l₃ := (((Quiet.refl l₂).snoc rfl).trans hq').ext
  have hl₃ : l' <+: l₃ := (hq.ext.trans hext).trans hl₂
  simp only [Customer.publishOrder, bind_assoc]
  refine publishBoth (fun channel hof => Told.ext ?_ hl₂) fun e₁ e₂ h₁ h₂ => .ret ⟨rfl, table.id, ?_, ?_⟩
  · obtain ⟨m₁, e', m₂, h, rfl, hplaces, hj, hmade⟩ := hp.committed
    rw [← hrid, ← hk] at hof
    refine ⟨m₁, e', m₂, h, rfl, hj, hmade, hplaces.announces hof ?_ ?_⟩
    · intro hnil
      rw [List.map_eq_nil_iff.mp hnil] at hids
      exact hne (List.map_eq_nil_iff.mp hids.symm)
    · rw [List.map_map]
      exact hids
  · exact ((hres'.ext hl₃).append _).append _
  · rw [hk]
    exact hseen.met.ext (hl₃.trans (by simp [List.append_assoc]))

theorem cancelItemCustomer {itemId : Uuid} {reason : Option String}
    (hreq : req t = .cancelItemCustomer qrToken itemId reason) :
    Triple owner req d₀ t .nothing [] (Customer.cancelItemCustomer qrToken itemId reason)
      (CustomerPost qrToken fun _ _ => True) := by
  unfold Customer.cancelItemCustomer
  refine resolve fun l table restaurant hl hres hown => ?_
  refine getOrOpenFor hl hres hown fun l' opened hres' hseen ht _ => ?_
  refine readAttribute ?_ (.error trivial)
  refine query fun σ hi ha => ⟨_, ha, ?_⟩
  split
  · rename_i hin
    rw [ha.view_nothing] at hin
    simp only [Query.eval, List.any_eq_true, Bool.and_eq_true, beq_iff_eq] at hin
    obtain ⟨i₀, hi₀, hid, -⟩ := hin
    obtain ⟨hi₀, hin₀⟩ := Data.mem_itemsOf.mp hi₀
    refine (conflictsAsHttp (r := req t) (k := restaurant.id)
      (P := fun s => s.id = opened.session.id) ?_).bind ?_ fun e h' l' hp => hp.1 ▸ .error hp.2
    · have hsw := cancelItem_swap itemId restaurant.id .customer reason [.pending] (by simp)
      refine updateItem hsw fun σ' l₁ now i s hi' hgrows hli hls hins hp hq => ?_
      have hp' := matchesId_iff.mp hp
      -- The item of the earlier read belongs to the session the client was given.
      have hg := hgrows _ (hq.ext.subset (List.mem_append_right l' List.mem_cons_self))
      obtain ⟨i₁, hi₁, hord⟩ := hg.item (hi.ok.mem_items.mp hi₀)
      rw [hid, ← hp'.1, hli] at hi₁
      cases hi₁
      have hk : s.id = opened.session.id := by
        refine Data.inSession_unique hi'.ok hins ?_
        rw [Data.inSession_congr hord]
        exact hg.inSession hi.ok hi'.ok hin₀
      have hq₁ : Quiet l' l₁ := ((Quiet.refl l').snoc rfl).trans hq
      obtain ⟨s', hs', -, ht'⟩ := (hq₁.seenOpen hseen).session hgrows
      rw [← hk, hls] at hs'
      cases hs'
      refine ⟨hk, fun l₂ hq' => ?_⟩
      rw [hreq]
      refine ⟨hp'.1, by simpa using hp'.2.2, rfl, ?_, ?_⟩
      · rw [hk, ht']
        exact (hq₁.trans hq').seenOpen hseen
      · rw [ht']
        exact hres'.ext (hq₁.trans hq').ext
    · rintro row h' l₁ ⟨rfl, hr, s, hk, hrow⟩
      obtain ⟨m₁, e, m₂, i, rfl, hmove, hmade⟩ := hrow.committed
      have hst : row.status = .cancelled := by
        rw [hreq] at hmove
        exact hmove.2.2.1
      simp only [Customer.publishCancelled, bind_assoc]
      refine publishBoth (fun channel hof => ?_) fun e₁ e₂ h₁ h₂ => .ret ⟨rfl, trivial⟩
      rw [← hr, ← hk] at hof
      exact ⟨m₁, e, m₂, .moved i row s, rfl, hmove, hmade, hof, .inr ⟨_, _, rfl, hst, by simp⟩⟩
  · exact .raise (.error trivial)

/-- The client has committed the call. -/
structure Called (owner : Uuid → Uuid) (r : Request) (l : List (Event n)) (k restaurantId : Uuid)
    (call : StaffCall) : Prop where
  session : call.tableSessionId = k
  committed : ∃ l₁ e l₂ s c, l = l₁ ++ e :: l₂ ∧ Justified l₁ (.calling s c) r ∧
    e.Made owner (.calling s c) ∧ c.id = call.id ∧ s.id = k ∧ c.restaurantId = restaurantId

theorem insertCall {k restaurantId : Uuid} {f : StaffCall → Action α}
    (hreq : req t = .callStaff qrToken) (hown : restaurantId = owner tableId)
    (hseen : SeenOpen tableId k l)
    (hok : ∀ call l', Called owner (req t) l' k restaurantId call →
      Triple owner req d₀ t .nothing l' (f call) post)
    (herr : ∀ e l', post (.error (.db e)) .nothing l') :
    Triple owner req d₀ t .nothing l
      (StaffCallService.insertCall tableId k restaurantId >>= f) post := by
  simp only [StaffCallService.insertCall, bind_assoc]
  refine command rfl (fun σ hi ha _ _ => ?_) fun σ e _ _ => herr e _
  obtain ⟨s, hs, hk, ht⟩ := hseen.session fun e he => hi.own_grows ha he
  have hrows := touch_rows hi.ok.sessionIds hs (σ.now t)
  refine ⟨.touching s, ?_, show lookup s.id σ.data.sessions = some s from hk ▸ hs, ?_⟩
  · rw [Holding.writes_nothing, empty_overlay, ha.rows_nothing]
    simp [Command.rows, Holding.writes, Sys.ctx, hrows]
  refine command ⟨s, rfl, hk⟩ (fun σ₁ hi₁ ha₁ _ _ => ?_) fun σ e _ _ => herr e _
  have hrest : s.restaurantId = restaurantId := by
    rw [hi₁.ok.restaurant s (mem_of_lookup ha₁.valid), ht, hown]
  refine ⟨.calling s ⟨σ₁.nextUuid, restaurantId, tableId, k, .pending, σ₁.now t, none, none⟩, ?_,
    ⟨hi₁.below.new_call, ha₁.valid, hk.symm, ht.symm, hrest⟩, ?_⟩
  · simp [Sys.rows, Command.rows, Holding.writes, Data.overlay, Sys.ctx]
  simp only [Sys.rows, Command.rows, List.head?_cons, Action.scalarOne, Prog.pure_def, Prog.ret_bind]
  have hj {l' : List (Event n)} (hl : SeenOpen tableId k l') (c : StaffCall) :
      Justified l' (.calling s c) (req t) := by
    rw [hreq]
    show SeenOpen s.tableId s.id _
    rw [hk, ht]
    exact hl
  refine commit trivial (hj ((hseen.append rfl).append rfl) _) fun σ₂ hi₂ ha₂ => ?_
  refine query fun σ₃ hi₃ ha₃ => ⟨_, ha₃, ?_⟩
  have hg := hi₃.own_grows ha₃ (List.mem_append_right _ List.mem_cons_self)
  let c : StaffCall := ⟨σ₁.nextUuid, restaurantId, tableId, k, .pending, σ₁.now t, none, none⟩
  obtain ⟨call, hcall, hses⟩ := hg.call (k := σ₁.nextUuid) (c := c)
    (by simp [Sys.event, Holding.writes, lookup_singleton, c])
  have hid : call.id = c.id := key_of_lookup hcall
  rw [ha₃.view_nothing, Query.eval]
  simp only [Sys.ctx, hcall]
  refine hok _ _ ⟨hses, _, _, _, s, c, List.append_assoc .., ?_, ?_, hid.symm, hk, rfl⟩
  · exact hj ((hseen.append rfl).append rfl) _
  · exact ⟨rfl, hi₂.ok, ha₂.valid, trivial, rfl⟩

theorem callStaff (hreq : req t = .callStaff qrToken) : Triple owner req d₀ t .nothing []
    (Customer.callStaff qrToken) (CustomerPost qrToken fun _ _ => True) := by
  unfold Customer.callStaff
  refine resolve fun l table restaurant hl hres hown => ?_
  refine getOrOpenFor hl hres hown fun l' opened hres' hseen ht _ => ?_
  refine readAttribute ?_ (.error trivial)
  simp only [StaffCallService.create, StaffCallService.getCooldown, bind_assoc]
  refine query fun σ hi ha => ⟨_, ha, query fun σ₁ hi₁ ha₁ => ⟨_, ha₁, ?_⟩⟩
  split
  · exact .ret ⟨rfl, trivial⟩
  · refine insertCall hreq hown ((hseen.append rfl).append rfl) (fun call l₁ hcall => ?_)
      fun e l₁ => .error trivial
    simp only [StaffCallService.publishNew, bind_assoc]
    refine publishBoth (fun channel hof => ?_) fun e₁ e₂ h₁ h₂ => .ret ⟨rfl, trivial⟩
    obtain ⟨m₁, e, m₂, s, c, rfl, hj, hmade, hid, hk, hr⟩ := hcall.committed
    rw [hcall.session, ← hr, ← hk] at hof
    refine ⟨m₁, e, m₂, .calling s c, rfl, hj, hmade, hof, call.tableId, call.status, call.createdAt, ?_⟩
    rw [hid, hk, hcall.session]

theorem ackStaffCall {user : TokenPayload} {callId : Uuid}
    (hreq : req t = .ackStaffCall user callId) : Triple owner req d₀ t .nothing []
    (Kitchen.ackStaffCall user callId) OrdinaryPost := by
  unfold Kitchen.ackStaffCall
  refine ordinaryAsHttp ?_ fun e he => ?_
  · unfold StaffCallService.ack
    refine query fun σ hi ha => ⟨_, ha, ?_⟩
    rw [ha.view_nothing, Query.eval]
    cases hc : (lookup callId σ.data.calls).filter fun c => c.restaurantId == user.restaurantId with
    | none => exact .raise (ordinary_error (by trivial))
    | some call =>
      dsimp only
      split
      · exact .ret ⟨rfl, by simp⟩
      obtain ⟨hl, hrid⟩ := Option.filter_eq_some_iff.mp hc
      simp only [StaffCallService.acknowledge, bind_assoc]
      refine appNow fun σ₀ _ _ => command rfl (fun σ₁ hi₁ ha₁ _ _ => ?_)
        fun σ e _ _ => ordinary_error (by trivial)
      have hg₁ := hi₁.own_grows ha₁ (List.mem_append_left _ List.mem_cons_self)
      obtain ⟨c, hc, hses⟩ := hg₁.call hl
      have hk : c.id = callId := key_of_lookup hc
      have hr : c.restaurantId = user.restaurantId := by
        rw [hg₁.call_restaurant hi.ok hi₁.ok (mem_of_lookup hl) (mem_of_lookup hc) hses]
        simpa using hrid
      have hrows : changed (fun c => c.id == callId) (fun c => c.acknowledge σ₀.appClock user.sub)
          σ₁.data.calls = [c.acknowledge σ₀.appClock user.sub] :=
        changed_eq_singleton (k := callId) (by simp) hi₁.ok.callIds hc (by simpa using hk)
      let c' := c.acknowledge σ₀.appClock user.sub
      refine ⟨.acking c c', ?_, ⟨hk ▸ hc, _, _, rfl⟩, ?_⟩
      · rw [Holding.writes_nothing, empty_overlay, ha₁.rows_nothing]
        simp [Command.rows, Holding.writes, hrows, c']
      have hj (l' : List (Event n)) : Justified l' (.acking c c') (req t) := by
        rw [hreq]
        exact hk
      refine commit trivial (hj _) fun σ₂ hi₂ ha₂ => ?_
      refine query fun σ₃ hi₃ ha₃ => ⟨_, ha₃, ?_⟩
      have hg := hi₃.own_grows ha₃ (List.mem_append_right _ List.mem_cons_self)
      obtain ⟨call', hcall, hses'⟩ := hg.call (k := callId) (c := c')
        (by simp [Sys.event, Holding.writes, lookup_singleton, hk, c'])
      have hid : call'.id = callId := key_of_lookup hcall
      have hses' : call'.tableSessionId = c.tableSessionId := hses'
      rw [ha₃.view_nothing, Query.eval, hcall]
      simp only [Action.scalarOne, StaffCallService.publishAck, Prog.pure_def, Prog.ret_bind, bind_assoc]
      refine publishBoth (fun channel hof => Told.append ?_ _) fun e₁ e₂ h₁ h₂ => .ret ⟨rfl, by simp⟩
      rw [← hr, hses'] at hof
      refine ⟨_, _, [], .acking c c', rfl, hj _, ⟨rfl, hi₂.ok, ha₂.valid, trivial, rfl⟩, hof,
        call'.tableId, call'.status, call'.acknowledgedAt, call'.acknowledgedBy, ?_⟩
      rw [hid, hk, hses']
  · exact valueErrorToHttp_ordinary he

end Triple

end QOrder
