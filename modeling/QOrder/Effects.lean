import QOrder.Messages

/-! What one operation, run alone, does to the items, and the messages it sends about it. -/

namespace QOrder

open KeyedTable Concurrency

/-- The messages published on a channel, in their order. -/
def messagesOn {n : Nat} (channel : Channel) (h : List (Event n)) : List RealtimeEvent :=
  h.filterMap fun e =>
    match e.stmt with
    | .publish c event => if c = channel then some event else none
    | _ => none

theorem mem_messagesOn {n : Nat} {channel : Channel} {h : List (Event n)} {event : RealtimeEvent} :
    event ∈ messagesOn channel h ↔ ∃ e ∈ h, e.stmt = .publish channel event := by
  simp only [messagesOn, List.mem_filterMap]
  constructor
  · rintro ⟨e, he, hm⟩
    split at hm
    next c ev hq =>
      split at hm
      next hc =>
        cases hm
        exact ⟨e, he, hc ▸ hq⟩
      · cases hm
    · cases hm
  · rintro ⟨e, he, hq⟩
    refine ⟨e, he, ?_⟩
    rw [hq]
    exact if_pos rfl

/-- Applying the same idempotent change, seen through `v`, more than once. -/
theorem foldl_image {α β γ : Type} {f : α → β → α} {v : α → γ} {g : γ → γ} {l : List β} (hne : l ≠ [])
    (hf : ∀ b ∈ l, ∀ a, v (f a b) = g (v a)) (hg : ∀ c, g (g c) = g c) (a : α) :
    v (l.foldl f a) = g (v a) := by
  cases l with
  | nil => exact absurd rfl hne
  | cons b l =>
    have hb := hf b List.mem_cons_self a
    have hl : ∀ c ∈ l, ∀ a, v (f a c) = g (v a) := fun c hc => hf c (List.mem_cons_of_mem _ hc)
    rw [List.foldl_cons, ← hb]
    have hfix : g (v (f a b)) = v (f a b) := by rw [hb, hg]
    clear hf hb hne
    generalize f a b = x at hfix ⊢
    induction l generalizing x with
    | nil => rfl
    | cons c l ih =>
      have hc := hl c List.mem_cons_self x
      rw [List.foldl_cons, ih (fun y hy => hl y (List.mem_cons_of_mem _ hy)) _ (by rw [hc, hg]), hc, hfix]

theorem foldl_same {α β : Type} {f : α → β → α} {g : α → α} {l : List β} (hne : l ≠ [])
    (hf : ∀ b ∈ l, ∀ a, f a b = g a) (hg : ∀ a, g (g a) = g a) (a : α) : l.foldl f a = g a :=
  foldl_image (v := id) hne hf hg a

def Request.isCreateOrder : Request → Bool
  | .createOrder _ _ => true
  | _ => false

/-- `set_status` back to pending. -/
def Request.isUndo : Request → Bool
  | .setItemStatus _ _ toStatus => toStatus = .pending
  | _ => false

def Request.isCancel : Request → Bool
  | .cancelItemStaff _ _ _ | .cancelItemCustomer _ _ _ => true
  | _ => false

section Alone

variable {owner : Uuid → Uuid} {r : Request} {D : Deployment owner} {p : Clients 1}
  {l l₁ l₂ l₃ : List (Event 1)} {e e' : Event 1} {h h' : Holding} {i i' : OrderItem} {s : TableSession}
  {channel : Channel} {event : RealtimeEvent}

/-- The commit that a message is about. -/
theorem Deployment.Reaches.sent (hr : D.Reaches (fun _ => r) p) (hm : event ∈ messagesOn channel p.state.history) :
    ∃ l₁ e l₂ h, p.state.history = l₁ ++ e :: l₂ ∧ Committed owner (fun _ => r) l₁ e h ∧
      h.Announces channel event := by
  obtain ⟨x, hx, hq⟩ := mem_messagesOn.mp hm
  obtain ⟨hb, post, hh⟩ := List.append_of_mem hx
  obtain ⟨l₁, e, l₂, h, hl, hj, hm, ha⟩ := (hr.inv.logged hb x post hh).told channel event hq
  rw [own_alone] at hl
  refine ⟨l₁, e, l₂ ++ x :: post, h, ?_, ⟨hm.commit, hm.ok, hm.valid, hm.complete, ?_, hm.after⟩, ha⟩
  · rw [hh, hl]
    simp
  · rw [own_alone]
    exact hj

/-- Data of which no commit of a stretch changes a part keep that part. -/
theorem Follows.keeps {β : Type} (f : Data → β) {d d' : Data}
    (hf : Follows Event.before Event.after d l d') (h : ∀ e ∈ l, f e.after = f e.before) : f d' = f d := by
  refine hf.rel (R := fun d d' => f d' = f d) (fun _ => rfl) (fun hab hbc => hbc.trans hab) h

theorem Committed.split (hr : D.Reaches (fun _ => r) p) (hh : p.state.history = l₁ ++ e :: l₂) :
    Follows Event.before Event.after D.data l₁ e.before ∧
      Follows Event.before Event.after e.after l₂ p.state.data := by
  have hf := hr.inv.follows
  rw [hh] at hf
  exact ⟨hf.split.1, hf.split.2⟩

theorem Deployment.Reaches.grown (hr : D.Reaches (fun _ => r) p) (hh : p.state.history = l₁ ++ e :: l₂) :
    D.data.Grows e.before := by
  refine (Committed.split hr hh).1.rel Data.Grows.refl (fun hab hbc => hab.trans hbc) fun x hx => ?_
  obtain ⟨hb, -, hen⟩ := hr.entry (e := x) (by rw [hh]; simp [hx])
  exact hen.grows

def Holding.changesItems : Holding → Bool
  | leaving _ _ _ _ | moved _ _ _ | ordering _ _ | ordered _ _ _ _ => true
  | _ => false

theorem Committed.items_kept {req : Fin 1 → Request} (hc : Committed owner req l e h)
    (hk : h.changesItems = false) : e.after.items = e.before.items ∧ e.after.orders = e.before.orders := by
  have hcomplete := hc.complete
  rw [hc.after]
  cases h with
  | leaving | moved | ordering | ordered => cases hk
  | moving | touching | nothing => exact absurd hcomplete (by simp [Holding.Complete])
  | _ => exact ⟨overlay_nil _, overlay_nil _⟩

theorem Entry.items_kept {req : Fin 1 → Request} (hen : Entry owner req l e)
    (hk : ∀ h, Committed owner req l e h → h.changesItems = false) :
    e.after.items = e.before.items ∧ e.after.orders = e.before.orders := by
  rcases hen.unchanged_or_committed with ha | ⟨h, hc⟩
  · rw [ha]
    exact ⟨rfl, rfl⟩
  · exact hc.items_kept (hk h hc)

/-- An operation whose commits all leave the items alone. -/
theorem Deployment.Reaches.items_kept (hr : D.Reaches (fun _ => r) p)
    (hk : ∀ l h, Justified (n := 1) l h r → h.changesItems = false) :
    p.state.data.items = D.data.items ∧ p.state.data.orders = D.data.orders := by
  have hev : ∀ e ∈ p.state.history,
      e.after.items = e.before.items ∧ e.after.orders = e.before.orders := by
    intro e he
    obtain ⟨hb, -, hen⟩ := hr.entry he
    exact hen.items_kept fun h hc => hk _ h hc.justified
  have hf := hr.inv.follows
  exact ⟨Follows.keeps Data.items hf fun e he => (hev e he).1,
    Follows.keeps Data.orders hf fun e he => (hev e he).2⟩

/-- An operation that commits only once. -/
def Request.Single (r : Request) : Prop := ∀ l h, Justified (n := 1) l h r → commitsOf l = []

theorem Deployment.Reaches.single (hr : D.Reaches (fun _ => r) p) (hs : r.Single)
    (hh : p.state.history = l₁ ++ e :: l₂) (hc : Committed owner (fun _ => r) l₁ e h) :
    e.before = D.data ∧ p.state.data = e.after := by
  have hfirst := hs _ _ hc.justified
  rw [own_alone] at hfirst
  obtain ⟨hbefore, hafter⟩ := Committed.split hr hh
  constructor
  · refine hbefore.unchanged fun x hx => ?_
    obtain ⟨hb, -, hen⟩ := hr.entry (e := x) (by rw [hh]; simp [hx])
    refine hen.other ?_
    by_contra hcm
    have hmem : x ∈ commitsOf l₁ := List.mem_filter.mpr ⟨hx, by simpa using hcm⟩
    rw [hfirst] at hmem
    cases hmem
  · refine hafter.unchanged fun x hx => ?_
    obtain ⟨m, m', rfl⟩ := List.append_of_mem hx
    have hh' : p.state.history = (l₁ ++ e :: m) ++ x :: m' := by simp [hh]
    have hen := hr.inv.logged _ x m' hh'
    refine hen.other ?_
    by_contra hcm
    obtain ⟨h', hc'⟩ := hen.committed (by simpa using hcm)
    have hlater := hs _ _ hc'.justified
    rw [own_alone] at hlater
    have hmem : e ∈ commitsOf (l₁ ++ e :: m) := List.mem_filter.mpr ⟨by simp, hc.commit⟩
    rw [hlater] at hmem
    cases hmem

/-- An operation that changes one item. -/
structure ItemMoved (d d' : Data) (i i' : OrderItem) (s : TableSession) : Prop where
  before : lookup i.id d.items = some i
  move : ∃ now, i.Move now i'
  inSession : d.inSession s.id i = true
  items : d'.items = overlay d.items [i']
  orders : d'.orders = d.orders

theorem Committed.item_moved {req : Fin 1 → Request} (hc : Committed owner req l e (.moved i i' s)) :
    ItemMoved e.before e.after i i' s where
  before := hc.valid.1
  move := ⟨e.now, hc.valid.2.1⟩
  inSession := hc.valid.2.2.2
  items := by
    rw [hc.after]
    rfl
  orders := by
    rw [hc.after]
    exact overlay_nil _

theorem ItemMoved.congr {d d' d₀ d₁ : Data} (h : ItemMoved d d' i i' s)
    (h₀ : d.items = d₀.items ∧ d.orders = d₀.orders) (h₁ : d₁.items = d'.items ∧ d₁.orders = d'.orders) :
    ItemMoved d₀ d₁ i i' s where
  before := h₀.1 ▸ h.before
  move := h.move
  inSession := by
    have hin := h.inSession
    rwa [Data.inSession, h₀.2] at hin
  items := by rw [h₁.1, h.items, h₀.1]
  orders := by rw [h₁.2, h.orders, h₀.2]

theorem ItemMoved.mem_items {d d' : Data} {j : OrderItem} (hm : ItemMoved d d' i i' s)
    (hk : UniqueKeys d.items) : j ∈ d'.items ↔ j = i' ∨ j ∈ d.items ∧ j.id ≠ i.id := by
  obtain ⟨now, hmove⟩ := hm.move
  have hnew : lookup (key j) [i'] = none ↔ j.id ≠ i.id := by
    rw [lookup_singleton, key_item, key_item, hmove.id_eq]
    by_cases he : i.id = j.id
    · simp [he]
    · simp [he, Ne.symm he]
  rw [hm.items, mem_overlay hk (uniqueKeys_singleton _), List.mem_singleton, hnew]

theorem ItemMoved.itemIds {d d' : Data} (hm : ItemMoved d d' i i' s) (hk : UniqueKeys d.items) :
    UniqueKeys d'.items := by
  rw [hm.items]
  exact uniqueKeys_overlay hk (uniqueKeys_singleton _)

/-- The items of the session afterwards: one of them has moved. -/
theorem ItemMoved.itemsOf {d d' : Data} (hm : ItemMoved d d' i i' s) (hk : UniqueKeys d.items) :
    d'.itemsOf s.id = (d.itemsOf s.id).map fun j => if j.id = i.id then i' else j := by
  obtain ⟨now, hmove⟩ := hm.move
  have hin : d'.inSession s.id = d.inSession s.id := by
    funext j
    rw [Data.inSession, hm.orders, Data.inSession]
  have hp : ∀ j ∈ d.items, (d.inSession s.id ∘ fun j => if j.id = i.id then i' else j) j =
      d.inSession s.id j := by
    intro j hj
    by_cases hid : j.id = i.id
    · obtain rfl := eq_of_key_eq hk hj (mem_of_lookup hm.before) hid
      simp [hm.inSession, Data.inSession_congr hmove.orderId_eq]
    · simp [hid]
  rw [Data.itemsOf, hin, hm.items, overlay_row hm.before hmove.id_eq, List.filter_map]
  exact congrArg _ (List.filter_congr hp)

/-- A customer cancels an item only once. -/
theorem Deployment.Reaches.cancels_once {qrToken : String} {itemId : Uuid} {reason : Option String}
    (hr : D.Reaches (fun _ => .cancelItemCustomer qrToken itemId reason) p) {j j' : OrderItem}
    {w : TableSession} (hh : p.state.history = l₁ ++ e :: l₂ ++ e' :: l₃)
    (hc : Committed owner (fun _ => .cancelItemCustomer qrToken itemId reason) l₁ e (.moved i i' s))
    (hc' : Committed owner (fun _ => .cancelItemCustomer qrToken itemId reason) (l₁ ++ e :: l₂) e'
      (.moved j j' w)) : False := by
  obtain ⟨hi, -, hcancelled, -⟩ := hc.justified
  obtain ⟨hj, hpending, -⟩ := hc'.justified
  have hid : i'.id = itemId := hc.valid.2.1.id_eq.trans hi
  have hafter : lookup itemId e.after.items = some i' := by
    rw [hc.after, ← hid]
    exact lookup_written _ rfl
  have hf := hr.inv.follows
  rw [hh, List.append_assoc] at hf
  obtain ⟨d, hm, he, -⟩ := follows_append.mp hf.split.2
  rw [← he] at hm
  have hkeeps : lookup itemId e'.before.items = some i' := by
    refine hm.rel (R := fun d d' : Data =>
      lookup itemId d.items = some i' → lookup itemId d'.items = some i')
      (fun _ h => h) (fun hab hbc h => hbc (hab h)) (fun x hx hl => ?_) hafter
    have hmem : x ∈ p.state.history := by
      rw [hh]
      simp [hx]
    obtain ⟨hb, -, hen⟩ := hr.entry hmem
    obtain ⟨i₁, hi₁, -⟩ := hen.grows.item hl
    rcases hr.item_becomes hmem hl hi₁ with rfl | hb
    · exact hi₁
    · exact absurd hcancelled hb.not_cancelled
  have hbefore := hc'.valid.1
  rw [hj, hkeeps] at hbefore
  cases hbefore
  rw [hcancelled] at hpending
  cases hpending

theorem Deployment.Reaches.item_moved (hr : D.Reaches (fun _ => r) p)
    (hh : p.state.history = l₁ ++ e :: l₂) (hc : Committed owner (fun _ => r) l₁ e (.moved i i' s)) :
    ItemMoved D.data p.state.data i i' s := by
  have hmoved := hc.item_moved
  have hj := hc.justified
  cases hr' : r with
  | setItemStatus user itemId toStatus =>
    subst hr'
    have hs : (Request.setItemStatus user itemId toStatus).Single := by
      intro l h hj
      cases h with
      | opening => exact hj
      | moved => exact hj.1
      | leaving => exact hj.1.elim
      | _ => exact hj.elim
    obtain ⟨hb, ha⟩ := hr.single hs hh hc
    exact hmoved.congr (by rw [hb]; exact ⟨rfl, rfl⟩) (by rw [ha]; exact ⟨rfl, rfl⟩)
  | cancelItemStaff user itemId reason =>
    subst hr'
    have hs : (Request.cancelItemStaff user itemId reason).Single := by
      intro l h hj
      cases h with
      | opening => exact hj
      | moved => exact hj.1
      | leaving => exact hj.1.elim
      | _ => exact hj.elim
    obtain ⟨hb, ha⟩ := hr.single hs hh hc
    exact hmoved.congr (by rw [hb]; exact ⟨rfl, rfl⟩) (by rw [ha]; exact ⟨rfl, rfl⟩)
  | cancelItemCustomer qrToken itemId reason =>
    subst hr'
    obtain ⟨hbefore, hafter⟩ := Committed.split hr hh
    have only {m : List (Event 1)} {x : Event 1} {g : Holding}
        (hg : Committed owner (fun _ => .cancelItemCustomer qrToken itemId reason) m x g) :
        g.changesItems = false ∨ ∃ j j' w, g = .moved j j' w := by
      have hj := hg.justified
      cases g with
      | moved j j' w => exact .inr ⟨j, j', w, rfl⟩
      | leaving => exact hj.1.elim
      | ordering | ordered => exact hj.elim
      | _ => exact .inl rfl
    have hb : ∀ x ∈ l₁, x.after.items = x.before.items ∧ x.after.orders = x.before.orders := by
      intro x hx
      obtain ⟨m, m', rfl⟩ := List.append_of_mem hx
      have hx' : p.state.history = m ++ x :: (m' ++ e :: l₂) := by simp [hh]
      refine (hr.inv.logged m x _ hx').items_kept fun g hg => (only hg).resolve_right ?_
      rintro ⟨j, j', w, rfl⟩
      exact hr.cancels_once hh hg hc
    have ha : ∀ x ∈ l₂, x.after.items = x.before.items ∧ x.after.orders = x.before.orders := by
      intro x hx
      obtain ⟨m, m', rfl⟩ := List.append_of_mem hx
      have hx' : p.state.history = l₁ ++ e :: m ++ x :: m' := by simp [hh]
      refine (hr.inv.logged _ x _ hx').items_kept fun g hg => (only hg).resolve_right ?_
      rintro ⟨j, j', w, rfl⟩
      exact hr.cancels_once hx' hc hg
    exact hmoved.congr
      ⟨Follows.keeps Data.items hbefore fun x hx => (hb x hx).1,
        Follows.keeps Data.orders hbefore fun x hx => (hb x hx).2⟩
      ⟨Follows.keeps Data.items hafter fun x hx => (ha x hx).1,
        Follows.keeps Data.orders hafter fun x hx => (ha x hx).2⟩
  | _ =>
    subst hr'
    exact hj.elim

theorem MoveOf.undo (hj : MoveOf l i i' s r) : r.isUndo = true ↔ i'.status = .pending := by
  cases r with
  | setItemStatus user itemId toStatus =>
    obtain ⟨-, -, -, rfl, -⟩ := hj
    simp [Request.isUndo]
  | cancelItemStaff => simp [Request.isUndo, hj.2.2.2]
  | cancelItemCustomer => simp [Request.isUndo, hj.2.2.1]
  | _ => exact hj.elim

theorem MoveOf.cancel (hj : MoveOf l i i' s r) : r.isCancel = true ↔ i'.status = .cancelled := by
  cases r with
  | setItemStatus user itemId toStatus =>
    obtain ⟨-, -, -, rfl, hs⟩ := hj
    simp [Request.isCancel, hs]
  | cancelItemStaff => simp [Request.isCancel, hj.2.2.2]
  | cancelItemCustomer => simp [Request.isCancel, hj.2.2.1]
  | _ => exact hj.elim

/-- The requests that change one item. -/
def Request.itemOf : Request → Option Uuid
  | .setItemStatus _ itemId _ | .cancelItemStaff _ itemId _ | .cancelItemCustomer _ itemId _ => some itemId
  | _ => none

theorem Committed.of_itemOf {req : Fin 1 → Request} {itemId : Uuid}
    (hc : Committed owner req l e h) (hk : (req e.client).itemOf = some itemId)
    (ha : h.Announces channel event) : ∃ i i' s, h = .moved i i' s ∧ i.id = itemId := by
  have hj := hc.justified
  cases hreq : req e.client with
  | setItemStatus user k toStatus =>
    rw [hreq] at hj hk
    cases hk
    cases h with
    | moved i i' s => exact ⟨i, i', s, rfl, hj.2.1⟩
    | opening s => exact ha.elim
    | leaving => exact hj.1.elim
    | _ => exact hj.elim
  | cancelItemStaff user k reason =>
    rw [hreq] at hj hk
    cases hk
    cases h with
    | moved i i' s => exact ⟨i, i', s, rfl, hj.2.1⟩
    | opening s => exact ha.elim
    | leaving => exact hj.1.elim
    | _ => exact hj.elim
  | cancelItemCustomer qrToken k reason =>
    rw [hreq] at hj hk
    cases hk
    cases h with
    | moved i i' s => exact ⟨i, i', s, rfl, hj.1⟩
    | opening s => exact ha.elim
    | leaving => exact hj.1.elim
    | _ => exact hj.elim
  | _ =>
    rw [hreq] at hk
    cases hk

/-- All the messages of the operation are about the item that it has changed. -/
theorem Deployment.Reaches.sent_moved {itemId : Uuid} (hr : D.Reaches (fun _ => r) p)
    (hk : r.itemOf = some itemId) (hm : messagesOn channel p.state.history ≠ []) :
    ∃ i i' s, ∃ l : List (Event 1), ItemMoved D.data p.state.data i i' s ∧ MoveOf l i i' s r ∧ i.id = itemId ∧
      ∀ event ∈ messagesOn channel p.state.history, (Holding.moved i i' s).Announces channel event := by
  obtain ⟨event₀, hevent₀⟩ := List.exists_mem_of_ne_nil _ hm
  obtain ⟨l₁, e, l₂, h, hh, hc, ha⟩ := hr.sent hevent₀
  obtain ⟨i, i', s, rfl, hi⟩ := hc.of_itemOf hk ha
  have hmoved := hr.item_moved hh hc
  refine ⟨i, i', s, _, hmoved, hc.justified, hi, fun event hevent => ?_⟩
  obtain ⟨m₁, e', m₂, h', hh', hc', ha'⟩ := hr.sent hevent
  obtain ⟨j, j', w, rfl, hj⟩ := hc'.of_itemOf hk ha'
  have hmoved' := hr.item_moved hh' hc'
  obtain ⟨now, hmove⟩ := hmoved.move
  obtain ⟨now', hmove'⟩ := hmoved'.move
  obtain rfl : j = i := by
    have hl := hmoved'.before
    rw [hj, ← hi, hmoved.before] at hl
    cases hl
    rfl
  have hitem : j' = i' := by
    have hl : lookup j.id p.state.data.items = some i' := by
      rw [hmoved.items]
      exact lookup_written _ hmove.id_eq
    have hl' : lookup j.id p.state.data.items = some j' := by
      rw [hmoved'.items]
      exact lookup_written _ hmove'.id_eq
    exact Option.some.inj (hl'.symm.trans hl)
  have hsession : w.id = s.id := Data.inSession_unique D.ok hmoved'.inSession hmoved.inSession
  rw [hitem] at ha'
  simp only [Holding.Announces, hsession] at ha' ⊢
  exact ha'

end Alone

section Cafe

/-- The café with a guest at its table, who has ordered a dish. -/
def cafeOrdered : Deployment fun _ => 1 where
  catalog := cafe.catalog
  data :=
    { sessions := [⟨10, 1, 2, .opened, none, 0, 0, none, none, none⟩]
      orders := [⟨11, 1, 10, 0⟩]
      items := [⟨12, 1, 11, 3, "Phở bò", 5000000, 10, 1, none, .pending, 0, none, none, none, none, none⟩] }
  clock := 0
  appClock := 0
  nextUuid := 13
  owned := cafe.owned
  ok :=
    { sessionIds := by decide
      orderIds := by decide
      itemIds := by decide
      callIds := by decide
      restaurant := by simp
      sessionColumns := by simp [TableSession.Columns]
      itemColumns := by
        intro i hi
        rw [List.mem_singleton.mp hi]
        exact ⟨by simp, by simp, by simp, by simp⟩
      orderSession := by decide
      itemOrder := by decide
      callSession := by simp
      oneOpen := by simp }
  below := by
    refine ⟨?_, ?_, ?_, ?_⟩ <;> simp

end Cafe

end QOrder
