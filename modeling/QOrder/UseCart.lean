import QOrder.CustomerMenu
import QOrder.Rounding

/-! The cart of a guest's page. Every cart that taps can make lists a dish once, as the menu shows
it; portions are only lost when the cart is changed while an order is on its way. -/

namespace QOrder

open KeyedTable Concurrency

/-- The price is that of the menu. The page keeps the number that `parseFloat` makes of it, and only
`totalAmount` reads it. -/
structure CartItem where
  menuItemId : Uuid
  name : String
  price : Money
  quantity : Int
  note : String
  deriving DecidableEq, Repr

namespace UseCart

def addItem (items : List CartItem) (menuItem : CustomerMenuItemResponse) : List CartItem :=
  if (items.find? fun i => i.menuItemId == menuItem.id).isSome then
    items.map fun i => if i.menuItemId = menuItem.id then { i with quantity := i.quantity + 1 } else i
  else
    items ++ [{ menuItemId := menuItem.id, name := menuItem.name, price := menuItem.price, quantity := 1, note := "" }]

def removeItem (items : List CartItem) (menuItemId : Uuid) : List CartItem :=
  items.filter fun i => i.menuItemId ≠ menuItemId

def updateQuantity (items : List CartItem) (menuItemId : Uuid) (quantity : Int) : List CartItem :=
  if quantity ≤ 0 then removeItem items menuItemId
  else items.map fun i => if i.menuItemId = menuItemId then { i with quantity } else i

def updateNote (items : List CartItem) (menuItemId : Uuid) (note : String) : List CartItem :=
  items.map fun i => if i.menuItemId = menuItemId then { i with note } else i

def totalAmount (items : List CartItem) : Rat :=
  items.foldl (fun sum item => Binary64.nearest (sum + Binary64.nearest
    (Binary64.nearest ((item.price : Rat) / 100) * item.quantity))) 0

end UseCart

/-- White space and line ends of ECMAScript. -/
def jsSpace (c : Char) : Bool :=
  c.toNat ∈ [9, 10, 11, 12, 13, 32, 160, 5760, 8232, 8233, 8239, 8287, 12288, 65279] ||
    (decide (8192 ≤ c.toNat) && decide (c.toNat ≤ 8202))

def jsTrim (s : String) : String :=
  String.ofList ((s.toList.dropWhile jsSpace).reverse.dropWhile jsSpace).reverse

/-- A line of the body as it is sent. -/
structure OrderLine where
  menuItemId : Uuid
  quantity : Int
  note : Option String
  deriving DecidableEq, Repr

/-- `note.trim() || null` -/
def CartItem.line (i : CartItem) : OrderLine where
  menuItemId := i.menuItemId
  quantity := i.quantity
  note := if jsTrim i.note = "" then none else some (jsTrim i.note)

/-- What the schemas take. -/
def OrderLine.validate (l : OrderLine) : Option CreateOrderItemRequest :=
  if h : 0 < l.quantity then
    some { menuItemId := l.menuItemId, quantity := l.quantity.toNat, note := l.note, quantity_pos := by omega }
  else none

def CreateOrderRequest.validate (lines : List OrderLine) : Option CreateOrderRequest :=
  (lines.mapM OrderLine.validate).bind fun items => if h : items = [] then none else some ⟨items, h⟩

/-- The cart of the page, the one whose order is on its way, and those that have been ordered. -/
structure CartPage where
  items : List CartItem := []
  sending : Option (List CartItem) := none
  placed : List (List CartItem) := []
  deriving DecidableEq, Repr

inductive CartAction
  | addItem (menuItem : CustomerMenuItemResponse)
  | removeItem (menuItemId : Uuid)
  | updateQuantity (menuItemId : Uuid) (quantity : Int)
  | updateNote (menuItemId : Uuid) (note : String)
  | submit
  /-- The response of the order. -/
  | ordered
  | failed

namespace CartPage

/-- `handleAddItem`, the buttons of the cart, and `handleSubmitOrder` up to the request and from its
answer on. -/
def step (σ : CartPage) : CartAction → CartPage
  | .addItem menuItem => if menuItem.isAvailable then { σ with items := UseCart.addItem σ.items menuItem } else σ
  | .removeItem menuItemId => { σ with items := UseCart.removeItem σ.items menuItemId }
  | .updateQuantity menuItemId quantity => { σ with items := UseCart.updateQuantity σ.items menuItemId quantity }
  | .updateNote menuItemId note => { σ with items := UseCart.updateNote σ.items menuItemId note }
  | .submit => if σ.items.length = 0 ∨ σ.sending.isSome then σ else { σ with sending := some σ.items }
  | .ordered =>
    match σ.sending with
    | none => σ
    | some sent => { items := [], sending := none, placed := σ.placed ++ [sent] }
  | .failed => { σ with sending := none }

def run (σ : CartPage) (actions : List CartAction) : CartPage := actions.foldl step σ

end CartPage

/-- The portions of a dish. -/
def portions (items : List CartItem) (id : Uuid) : Int :=
  ((items.filter fun i => i.menuItemId == id).map CartItem.quantity).sum

/-- The menu lists the dish of the line, under its name and at its price, and offers it. -/
def CartItem.Listed (menu : List CustomerMenuCategoryResponse) (i : CartItem) : Prop :=
  ∃ dish ∈ dishesOf menu, dish.id = i.menuItemId ∧ dish.name = i.name ∧ dish.price = i.price ∧
    dish.isAvailable = true

/-- A cart of the menu: every dish once, and some of it. -/
structure Sound (menu : List CustomerMenuCategoryResponse) (items : List CartItem) : Prop where
  once : (items.map CartItem.menuItemId).Nodup
  positive : ∀ i ∈ items, 0 < i.quantity
  listed : ∀ i ∈ items, i.Listed menu

section Operations

variable {items : List CartItem} {menu : List CustomerMenuCategoryResponse} {id k : Uuid}
  {dish : CustomerMenuItemResponse} {f : CartItem → CartItem} {i : CartItem}

@[simp] theorem portions_nil (id : Uuid) : portions [] id = 0 := rfl

theorem portions_cons (i : CartItem) (items : List CartItem) (id : Uuid) :
    portions (i :: items) id = (if i.menuItemId = id then i.quantity else 0) + portions items id := by
  by_cases h : i.menuItemId = id
  · simp [portions, h]
  · simp [portions, h]

theorem portions_append (items items' : List CartItem) (id : Uuid) :
    portions (items ++ items') id = portions items id + portions items' id := by
  simp [portions]

theorem portions_of_notMem (h : id ∉ items.map CartItem.menuItemId) : portions items id = 0 := by
  induction items with
  | nil => rfl
  | cons i items ih =>
    obtain ⟨hi, hrest⟩ := not_or.mp (mt List.mem_cons.mpr h)
    rw [portions_cons, if_neg fun he => hi he.symm, ih hrest, add_zero]

/-- An edit of one line that keeps its dish. -/
def editLine (k : Uuid) (f : CartItem → CartItem) (i : CartItem) : CartItem := if i.menuItemId = k then f i else i

theorem menuItemId_editLine (hf : ∀ i, (f i).menuItemId = i.menuItemId) (i : CartItem) :
    (editLine k f i).menuItemId = i.menuItemId := by
  unfold editLine
  split
  · exact hf i
  · rfl

theorem portions_editLine (hf : ∀ i, (f i).menuItemId = i.menuItemId) (hid : id ≠ k) (items : List CartItem) :
    portions (items.map (editLine k f)) id = portions items id := by
  induction items with
  | nil => rfl
  | cons i items ih =>
    rw [List.map_cons, portions_cons, portions_cons, ih, menuItemId_editLine hf]
    by_cases h : i.menuItemId = id
    · rw [if_pos h, if_pos h, editLine, if_neg fun he => hid (h.symm.trans he)]
    · rw [if_neg h, if_neg h]

theorem portions_edited (hf : ∀ i, (f i).menuItemId = i.menuItemId) (hn : (items.map CartItem.menuItemId).Nodup)
    (hi : i ∈ items) (hk : i.menuItemId = k) : portions (items.map (editLine k f)) k = (f i).quantity := by
  induction items with
  | nil => cases hi
  | cons j items ih =>
    obtain ⟨hj, hrest⟩ := List.nodup_cons.mp hn
    have hids : (items.map (editLine k f)).map CartItem.menuItemId = items.map CartItem.menuItemId := by
      rw [List.map_map]
      exact List.map_congr_left fun x _ => menuItemId_editLine hf x
    rw [List.map_cons, portions_cons, menuItemId_editLine hf]
    rcases List.mem_cons.mp hi with rfl | hi
    · have hzero : portions (items.map (editLine k f)) k = 0 := portions_of_notMem (by rwa [hids, ← hk])
      rw [if_pos hk, hzero, editLine, if_pos hk, add_zero]
    · have hne : j.menuItemId ≠ k := fun he => hj (by rw [he, ← hk]; exact List.mem_map_of_mem hi)
      rw [if_neg hne, ih hrest hi, zero_add]

theorem portions_of_mem (hn : (items.map CartItem.menuItemId).Nodup) (hi : i ∈ items) :
    portions items i.menuItemId = i.quantity := by
  have h := portions_edited (f := fun i => i) (fun _ => rfl) hn hi rfl
  have hsame : items.map (editLine i.menuItemId fun i => i) = items := by
    rw [List.map_congr_left fun x _ => show editLine i.menuItemId (fun i => i) x = x by simp [editLine], List.map_id']
  rwa [hsame] at h

theorem Sound.edit (h : Sound menu items) (hf : ∀ i, (f i).menuItemId = i.menuItemId ∧ (f i).name = i.name ∧
    (f i).price = i.price) (hq : ∀ i, 0 < i.quantity → 0 < (f i).quantity) :
    Sound menu (items.map (editLine k f)) := by
  have hedit (i : CartItem) : (editLine k f i).menuItemId = i.menuItemId ∧ (editLine k f i).name = i.name ∧
      (editLine k f i).price = i.price := by
    unfold editLine
    split
    · exact hf i
    · exact ⟨rfl, rfl, rfl⟩
  refine ⟨?_, fun i hi => ?_, fun i hi => ?_⟩
  · rw [List.map_map]
    have hids := List.map_congr_left (f := CartItem.menuItemId ∘ editLine k f) fun x (_ : x ∈ items) => (hedit x).1
    rw [hids]
    exact h.once
  · obtain ⟨j, hj, rfl⟩ := List.mem_map.mp hi
    have hpos := h.positive j hj
    unfold editLine
    split
    · exact hq j hpos
    · exact hpos
  · obtain ⟨j, hj, rfl⟩ := List.mem_map.mp hi
    obtain ⟨dish, hd, hid, hname, hprice, ha⟩ := h.listed j hj
    obtain ⟨hid', hname', hprice'⟩ := hedit j
    exact ⟨dish, hd, hid.trans hid'.symm, hname.trans hname'.symm, hprice.trans hprice'.symm, ha⟩

theorem sound_removeItem (h : Sound menu items) : Sound menu (UseCart.removeItem items k) where
  once := h.once.sublist (List.filter_sublist.map _)
  positive i hi := h.positive i (List.mem_of_mem_filter hi)
  listed i hi := h.listed i (List.mem_of_mem_filter hi)

theorem sound_updateQuantity {quantity : Int} (h : Sound menu items) :
    Sound menu (UseCart.updateQuantity items k quantity) := by
  unfold UseCart.updateQuantity
  by_cases hq : quantity ≤ 0
  · rw [if_pos hq]
    exact sound_removeItem h
  · rw [if_neg hq]
    exact h.edit (f := fun i => { i with quantity }) (fun _ => ⟨rfl, rfl, rfl⟩) fun _ _ => by
      dsimp only
      omega

theorem notMem_of_find?_eq_none (h : (items.find? fun i => i.menuItemId == dish.id).isSome = false) :
    dish.id ∉ items.map CartItem.menuItemId := by
  intro hmem
  obtain ⟨i, hi, hid⟩ := List.mem_map.mp hmem
  have hnone := List.find?_eq_none.mp (Option.isSome_eq_false_iff.mp h |> Option.isNone_iff_eq_none.mp) i hi
  simp [hid] at hnone

theorem sound_addItem (h : Sound menu items) (hd : dish ∈ dishesOf menu) (ha : dish.isAvailable = true) :
    Sound menu (UseCart.addItem items dish) := by
  unfold UseCart.addItem
  by_cases hfound : (items.find? fun i => i.menuItemId == dish.id).isSome = true
  · rw [if_pos hfound]
    exact h.edit (f := fun i => { i with quantity := i.quantity + 1 }) (fun _ => ⟨rfl, rfl, rfl⟩) fun _ _ => by
      dsimp only
      omega
  · rw [if_neg hfound]
    have hnew := notMem_of_find?_eq_none (Bool.eq_false_iff.mpr hfound)
    refine ⟨?_, fun i hi => ?_, fun i hi => ?_⟩
    · rw [List.map_append, List.map_singleton, List.nodup_append]
      refine ⟨h.once, List.nodup_singleton _, fun x hx y hy => ?_⟩
      rw [List.mem_singleton.mp hy]
      rintro rfl
      exact hnew hx
    · rcases List.mem_append.mp hi with hi | hi
      · exact h.positive i hi
      · rw [List.mem_singleton.mp hi]
        exact Int.one_pos
    · rcases List.mem_append.mp hi with hi | hi
      · exact h.listed i hi
      · rw [List.mem_singleton.mp hi]
        exact ⟨dish, hd, rfl, rfl, rfl, ha⟩

theorem portions_removeItem (items : List CartItem) (k id : Uuid) :
    portions (UseCart.removeItem items k) id = if k = id then 0 else portions items id := by
  by_cases hk : k = id
  · subst hk
    have hnone : (items.filter fun i => i.menuItemId ≠ k).filter (fun i => i.menuItemId == k) = [] := by
      rw [List.filter_filter]
      simp
    rw [if_pos rfl, portions, UseCart.removeItem, hnone]
    rfl
  · have hsame : (items.filter fun i => i.menuItemId ≠ k).filter (fun i => i.menuItemId == id) =
        items.filter fun i => i.menuItemId == id := by
      rw [List.filter_filter]
      refine List.filter_congr fun i _ => ?_
      by_cases hi : i.menuItemId = id
      · simp [hi, Ne.symm hk]
      · simp [hi]
    rw [if_neg hk, portions, UseCart.removeItem, hsame]
    rfl

theorem portions_setQuantity (hn : (items.map CartItem.menuItemId).Nodup) (k : Uuid) (quantity : Int) (id : Uuid) :
    portions (items.map (editLine k fun i => { i with quantity })) id =
      if k = id ∧ k ∈ items.map CartItem.menuItemId then quantity else portions items id := by
  have hkeeps (i : CartItem) : ({ i with quantity } : CartItem).menuItemId = i.menuItemId := rfl
  by_cases hk : k = id
  · subst hk
    by_cases hmem : k ∈ items.map CartItem.menuItemId
    · obtain ⟨i, hi, hik⟩ := List.mem_map.mp hmem
      rw [if_pos ⟨rfl, hmem⟩, portions_edited hkeeps hn hi hik]
    · rw [if_neg fun h => hmem h.2, portions_of_notMem hmem]
      refine portions_of_notMem fun h => hmem ?_
      rw [List.map_map] at h
      have hids := List.map_congr_left (f := CartItem.menuItemId ∘ editLine k fun i => { i with quantity })
        fun x (_ : x ∈ items) => menuItemId_editLine hkeeps x
      exact hids ▸ h
  · rw [if_neg fun h => hk h.1]
    exact portions_editLine hkeeps (Ne.symm hk) items

theorem portions_updateQuantity (hn : (items.map CartItem.menuItemId).Nodup) (k : Uuid) (quantity : Int) (id : Uuid) :
    portions (UseCart.updateQuantity items k quantity) id =
      if k = id ∧ k ∈ items.map CartItem.menuItemId then max quantity 0 else portions items id := by
  by_cases hq : quantity ≤ 0
  · have hremoved : UseCart.updateQuantity items k quantity = UseCart.removeItem items k := if_pos hq
    rw [hremoved, portions_removeItem, max_eq_right hq]
    by_cases hk : k = id
    · subst hk
      by_cases hmem : k ∈ items.map CartItem.menuItemId
      · rw [if_pos rfl, if_pos ⟨rfl, hmem⟩]
      · rw [if_pos rfl, if_neg fun h => hmem h.2, portions_of_notMem hmem]
    · rw [if_neg hk, if_neg fun h => hk h.1]
  · have hset : UseCart.updateQuantity items k quantity = items.map (editLine k fun i => { i with quantity }) :=
      if_neg hq
    rw [hset, portions_setQuantity hn, max_eq_left (by omega)]

theorem portions_updateNote (k : Uuid) (note : String) (id : Uuid) :
    portions (UseCart.updateNote items k note) id = portions items id := by
  unfold UseCart.updateNote
  induction items with
  | nil => rfl
  | cons i items ih =>
    rw [List.map_cons, portions_cons, portions_cons, ih]
    split <;> rfl

theorem portions_addItem (hn : (items.map CartItem.menuItemId).Nodup) (id : Uuid) :
    portions (UseCart.addItem items dish) id = portions items id + if dish.id = id then 1 else 0 := by
  have hkeeps (i : CartItem) : ({ i with quantity := i.quantity + 1 } : CartItem).menuItemId = i.menuItemId := rfl
  unfold UseCart.addItem
  by_cases hfound : (items.find? fun i => i.menuItemId == dish.id).isSome = true
  · rw [if_pos hfound]
    by_cases hid : dish.id = id
    · subst hid
      obtain ⟨i, hi⟩ := Option.isSome_iff_exists.mp hfound
      have hik : i.menuItemId = dish.id := by simpa using List.find?_some hi
      have hmem := List.mem_of_find?_eq_some hi
      have hset := portions_edited (f := fun i => { i with quantity := i.quantity + 1 }) hkeeps hn hmem hik
      have hold := portions_of_mem hn hmem
      rw [hik] at hold
      rw [if_pos rfl, hold]
      exact hset
    · rw [if_neg hid, add_zero]
      exact portions_editLine (f := fun i => { i with quantity := i.quantity + 1 }) hkeeps (Ne.symm hid) items
  · rw [if_neg hfound, portions_append, portions_cons, portions_nil, add_zero]

end Operations

namespace CartPage

/-- What a tap asks for, in portions of the dish. -/
def askedBy (id : Uuid) (σ : CartPage) : CartAction → Int
  | .addItem menuItem => if menuItem.isAvailable ∧ menuItem.id = id then 1 else 0
  | .removeItem k => if k = id then -portions σ.items id else 0
  | .updateQuantity k quantity =>
    if k = id ∧ k ∈ σ.items.map CartItem.menuItemId then max quantity 0 - portions σ.items id else 0
  | _ => 0

/-- What the answer of an order clears from the cart and was not ordered. -/
def lostBy (id : Uuid) (σ : CartPage) : CartAction → Int
  | .ordered => (σ.sending.map fun sent => portions σ.items id - portions sent id).getD 0
  | _ => 0

/-- The portions in the cart and in the orders. -/
def held (id : Uuid) (σ : CartPage) : Int :=
  portions σ.items id + (σ.placed.map fun sent => portions sent id).sum

def along (g : CartPage → CartAction → Int) : CartPage → List CartAction → Int
  | _, [] => 0
  | σ, a :: actions => g σ a + along g (σ.step a) actions

structure Ok (menu : List CustomerMenuCategoryResponse) (σ : CartPage) : Prop where
  items : Sound menu σ.items
  sending : ∀ sent, σ.sending = some sent → Sound menu sent ∧ sent ≠ []
  placed : ∀ sent ∈ σ.placed, Sound menu sent ∧ sent ≠ []

end CartPage

/-- The dishes that are added are on the menu. -/
def Taps (menu : List CustomerMenuCategoryResponse) (actions : List CartAction) : Prop :=
  ∀ dish, .addItem dish ∈ actions → dish ∈ dishesOf menu

section Runs

open CartPage

variable {menu : List CustomerMenuCategoryResponse} {σ : CartPage} {a : CartAction} {actions : List CartAction}
  {id : Uuid}

theorem taps_cons (h : Taps menu (a :: actions)) : Taps menu [a] ∧ Taps menu actions := by
  refine ⟨fun dish hd => h dish ?_, fun dish hd => h dish (List.mem_cons_of_mem a hd)⟩
  rw [List.mem_singleton.mp hd]
  exact List.mem_cons_self

theorem CartPage.ok_empty (menu : List CustomerMenuCategoryResponse) : Ok menu {} where
  items := ⟨List.nodup_nil, fun _ h => (by cases h), fun _ h => (by cases h)⟩
  sending _ h := by cases h
  placed _ h := by cases h

theorem CartPage.Ok.step (h : σ.Ok menu) (ha : Taps menu [a]) : (σ.step a).Ok menu := by
  cases a with
  | addItem dish =>
    dsimp only [CartPage.step]
    by_cases hd : dish.isAvailable = true
    · rw [if_pos hd]
      exact { h with items := sound_addItem h.items (ha dish (List.mem_singleton.mpr rfl)) hd }
    · rw [if_neg hd]
      exact h
  | removeItem k => exact { h with items := sound_removeItem h.items }
  | updateQuantity k quantity => exact { h with items := sound_updateQuantity h.items }
  | updateNote k note =>
    refine { h with items := ?_ }
    exact h.items.edit (f := fun i => { i with note }) (fun _ => ⟨rfl, rfl, rfl⟩) fun _ hq => hq
  | submit =>
    dsimp only [CartPage.step]
    by_cases hs : σ.items.length = 0 ∨ σ.sending.isSome
    · rw [if_pos hs]
      exact h
    · rw [if_neg hs]
      refine { h with sending := fun sent hsent => ?_ }
      cases hsent
      exact ⟨h.items, fun hnil => hs (.inl (by rw [hnil]; rfl))⟩
  | ordered =>
    dsimp only [CartPage.step]
    cases hsent : σ.sending with
    | none => exact h
    | some sent =>
      refine ⟨(ok_empty menu).items, fun _ hn => (by cases hn), fun x hx => ?_⟩
      rcases List.mem_append.mp hx with hx | hx
      · exact h.placed x hx
      · rw [List.mem_singleton.mp hx]
        exact h.sending sent hsent
  | failed => exact { h with sending := fun _ hn => (by cases hn) }

theorem CartPage.Ok.run (h : σ.Ok menu) (ha : Taps menu actions) : (σ.run actions).Ok menu := by
  induction actions generalizing σ with
  | nil => exact h
  | cons a actions ih =>
    obtain ⟨hfirst, hrest⟩ := taps_cons ha
    exact ih (h.step hfirst) hrest

/-- One step: what is held and what is lost is what was held and what is asked for. -/
theorem CartPage.held_step (h : σ.Ok menu) (id : Uuid) (a : CartAction) :
    (σ.step a).held id + σ.lostBy id a = σ.held id + σ.askedBy id a := by
  cases a with
  | addItem dish =>
    by_cases hd : dish.isAvailable = true
    · simp only [CartPage.step, hd, if_true, held, lostBy, askedBy, true_and,
        portions_addItem h.items.once]
      omega
    · simp [CartPage.step, hd, held, lostBy, askedBy]
  | removeItem k =>
    simp only [CartPage.step, held, lostBy, askedBy, portions_removeItem]
    by_cases hk : k = id
    · simp only [hk, if_true]
      omega
    · simp only [hk, if_false]
  | updateQuantity k quantity =>
    simp only [CartPage.step, held, lostBy, askedBy, portions_updateQuantity h.items.once]
    split <;> omega
  | updateNote k note => simp only [CartPage.step, held, lostBy, askedBy, portions_updateNote]
  | submit =>
    simp only [CartPage.step, lostBy, askedBy]
    split <;> rfl
  | ordered =>
    simp only [CartPage.step, lostBy, askedBy]
    cases hsent : σ.sending with
    | none => simp
    | some sent =>
      simp only [held, portions_nil, List.map_append, List.sum_append, List.map_singleton, List.sum_singleton,
        Option.map_some, Option.getD_some]
      omega
  | failed => rfl

theorem CartPage.held_run (h : σ.Ok menu) (ha : Taps menu actions) (id : Uuid) :
    (σ.run actions).held id + along (lostBy id) σ actions = σ.held id + along (askedBy id) σ actions := by
  induction actions generalizing σ with
  | nil => rfl
  | cons a actions ih =>
    obtain ⟨hfirst, htail⟩ := taps_cons ha
    have hrest := ih (h.step hfirst) htail
    have hone := held_step h id a
    have hrun : σ.run (a :: actions) = (σ.step a).run actions := rfl
    rw [hrun, along, along]
    omega

theorem CartPage.along_snoc (g : CartPage → CartAction → Int) (σ : CartPage) (pre : List CartAction) (a : CartAction) :
    along g σ (pre ++ [a]) = along g σ pre + g (σ.run pre) a := by
  induction pre generalizing σ with
  | nil => simp [along, CartPage.run]
  | cons b pre ih =>
    have hrun : σ.run (b :: pre) = (σ.step b).run pre := rfl
    rw [List.cons_append, along, along, ih, hrun, add_assoc]

/-- Every cart of a run is a cart of the menu; the portions asked for are in the cart, in an order,
or lost; and none are ever missing or in excess exactly if every answered order finds the cart as it
was sent. -/
theorem cart_kept (h : Taps menu actions) :
    (CartPage.run {} actions).Ok menu ∧
      (∀ id, along (askedBy id) {} actions =
        (CartPage.run {} actions).held id + along (lostBy id) {} actions) ∧
      ((∀ pre, pre <+: actions → ∀ id, along (askedBy id) {} pre = (CartPage.run {} pre).held id) ↔
        ∀ pre, pre ++ [.ordered] <+: actions → ∀ sent, (CartPage.run {} pre).sending = some sent →
          ∀ id, portions (CartPage.run {} pre).items id = portions sent id) := by
  have hempty := CartPage.ok_empty menu
  have hheld (pre : List CartAction) (hpre : pre <+: actions) (id : Uuid) :
      along (askedBy id) {} pre = (CartPage.run {} pre).held id + along (lostBy id) {} pre := by
    have hrun := CartPage.held_run hempty (fun dish hd => h dish (hpre.subset hd)) id
    have hstart : CartPage.held id {} = 0 := rfl
    omega
  refine ⟨hempty.run h, hheld actions (List.prefix_refl _), fun hall pre hpre sent hsent id => ?_, fun hall => ?_⟩
  · have hbefore := hheld pre ((List.prefix_append pre _).trans hpre) id
    have hafter := hheld _ hpre id
    have hasked := hall pre ((List.prefix_append pre _).trans hpre) id
    have hasked' := hall _ hpre id
    rw [along_snoc (lostBy id), lostBy, hsent] at hafter
    simp only [Option.map_some, Option.getD_some] at hafter
    omega
  · have hlost (pre : List CartAction) : pre <+: actions → ∀ id, along (lostBy id) {} pre = 0 := by
      induction pre using List.reverseRecOn with
      | nil => exact fun _ _ => rfl
      | append_singleton pre a ih =>
        intro hpre id
        rw [along_snoc, ih ((List.prefix_append pre _).trans hpre) id, zero_add]
        cases a with
        | ordered =>
          cases hsent : (CartPage.run {} pre).sending with
          | none => simp [lostBy, hsent]
          | some sent =>
            have hsame := hall pre hpre sent hsent id
            simp [lostBy, hsent, hsame]
        | _ => rfl
    intro pre hpre id
    have hsum := hheld pre hpre id
    rw [hlost pre hpre id] at hsum
    omega

end Runs

end QOrder
