import QOrder.Carts
import QOrder.UseCart

/-! A cart as it is ordered. While the page shows the menu as it is, the server takes whatever cart
the guest has made of it, and the order is the cart: its dishes, portions, notes and prices. -/

namespace QOrder

open KeyedTable Concurrency Binary64

/-- The row is the line of the cart. -/
structure CartItem.OrderedAs (x : CartItem) (i : OrderItem) : Prop where
  dish : i.menuItemId = x.menuItemId
  name : i.nameSnapshot = x.name
  price : i.priceSnapshot = x.price
  quantity : (i.quantity : Int) = x.quantity
  note : i.note = x.line.note
  status : i.status = .pending

/-- The line of the request is the line of the cart. -/
structure CartItem.SentAs (x : CartItem) (l : CreateOrderItemRequest) : Prop where
  dish : l.menuItemId = x.menuItemId
  quantity : (l.quantity : Int) = x.quantity
  note : l.note = x.line.note

section Bodies

variable {items : List CartItem} {menu : List CustomerMenuCategoryResponse} {x : CartItem}

theorem validate_line (h : 0 < x.quantity) : ∃ l, x.line.validate = some l ∧ x.SentAs l := by
  have hline : x.line.quantity = x.quantity := rfl
  refine ⟨_, dif_pos h, rfl, ?_, rfl⟩
  dsimp only
  omega

theorem validate_lines (h : ∀ x ∈ items, 0 < x.quantity) :
    ∃ lines, (items.map CartItem.line).mapM OrderLine.validate = some lines ∧
      List.Forall₂ CartItem.SentAs items lines := by
  induction items with
  | nil => exact ⟨[], rfl, .nil⟩
  | cons x items ih =>
    obtain ⟨l, hl, hsent⟩ := validate_line (h x List.mem_cons_self)
    obtain ⟨lines, hlines, hall⟩ := ih fun y hy => h y (List.mem_cons_of_mem x hy)
    refine ⟨l :: lines, ?_, .cons hsent hall⟩
    simp [List.mapM_cons, hl, hlines]

/-- The schemas take the body of every cart that is not empty. -/
theorem validate_cart (h : ∀ x ∈ items, 0 < x.quantity) (hne : items ≠ []) :
    ∃ body, CreateOrderRequest.validate (items.map CartItem.line) = some body ∧
      List.Forall₂ CartItem.SentAs items body.items := by
  obtain ⟨lines, hlines, hall⟩ := validate_lines h
  have hlines_ne : lines ≠ [] := by
    rintro rfl
    exact hne (List.forall₂_nil_right_iff.mp hall)
  refine ⟨⟨lines, hlines_ne⟩, ?_, hall⟩
  rw [CreateOrderRequest.validate, hlines, Option.bind_some, dif_neg hlines_ne]

theorem mem_sent {lines : List CreateOrderItemRequest} {l : CreateOrderItemRequest}
    (h : List.Forall₂ CartItem.SentAs items lines) (hl : l ∈ lines) : ∃ x ∈ items, x.SentAs l := by
  induction h with
  | nil => cases hl
  | @cons x line items lines hx _ ih =>
    rcases List.mem_cons.mp hl with rfl | hl
    · exact ⟨x, List.mem_cons_self, hx⟩
    · obtain ⟨y, hy, hs⟩ := ih hl
      exact ⟨y, List.mem_cons_of_mem x hy, hs⟩

theorem quantities_fit {lines : List CreateOrderItemRequest} (h : List.Forall₂ CartItem.SentAs items lines) :
    (∀ l ∈ lines, l.quantity ≤ int4Max) ↔ ∀ x ∈ items, x.quantity ≤ int4Max := by
  induction h with
  | nil => simp
  | @cons x line items lines hx _ ih =>
    have hq := hx.quantity
    rw [List.forall_mem_cons, List.forall_mem_cons, ih]
    constructor
    · rintro ⟨hl, hrest⟩
      exact ⟨by omega, hrest⟩
    · rintro ⟨hl, hrest⟩
      exact ⟨by omega, hrest⟩

end Bodies

section Menus

variable {o : Office} {restaurantId : Uuid} {x : CartItem}

/-- The dish of a line is on sale, as the line names and prices it. -/
theorem CartItem.Listed.onSale (hl : o.Lawful) (h : x.Listed (o.customerMenu restaurantId)) :
    ∃ m ∈ o.catalog.menuItems, m.id = x.menuItemId ∧ m.name = x.name ∧ m.price = x.price ∧
      m.restaurantId = restaurantId ∧ m.isActive = true ∧ m.isAvailable = true := by
  obtain ⟨dish, hdish, hid, hname, hprice, havailable⟩ := h
  obtain ⟨i, hi, -, rfl⟩ := (Office.mem_dishesOf hl).mp hdish
  obtain ⟨hmem, hr, hactive⟩ := Office.mem_activeItems.mp hi
  exact ⟨i.toMenuItem, List.mem_map_of_mem hmem, hid, hname, hprice, hr, hactive, havailable⟩

theorem ordered_of_fills {line : CreateOrderItemRequest} {i : OrderItem} {orderId : Uuid} {now : Timestamp}
    (hl : o.Lawful) (hx : x.Listed (o.customerMenu restaurantId)) (hs : x.SentAs line)
    (hf : o.catalog.Fills restaurantId orderId now line i) : x.OrderedAs i := by
  obtain ⟨m, hm, hid, hname, hprice, -⟩ := hx.onSale hl
  obtain ⟨m', hm', hid', -, -, -, hmade⟩ := hf
  have hsame : m' = m := List.inj_on_of_nodup_map hl.dishIds hm' hm (hid'.trans (hs.dish.trans hid.symm))
  subst hsame
  exact
    { dish := hmade.menuItem.trans hid
      name := hmade.name.trans hname
      price := hmade.price.trans hprice
      quantity := by
        rw [hmade.quantity]
        exact hs.quantity
      note := hmade.note.trans hs.note
      status := hmade.status }

theorem ordered_all {items : List CartItem} {lines : List CreateOrderItemRequest} {rows : List OrderItem}
    {orderId : Uuid} {now : Timestamp} (hl : o.Lawful) (hx : ∀ x ∈ items, x.Listed (o.customerMenu restaurantId))
    (hs : List.Forall₂ CartItem.SentAs items lines)
    (hf : List.Forall₂ (o.catalog.Fills restaurantId orderId now) lines rows) :
    List.Forall₂ CartItem.OrderedAs items rows := by
  induction hs generalizing rows with
  | nil =>
    cases hf
    exact .nil
  | @cons x line items lines hsent _ ih =>
    cases hf with
    | cons hfill hrest =>
      have hhead := ordered_of_fills hl (hx x List.mem_cons_self) hsent hfill
      exact .cons hhead (ih (fun y hy => hx y (List.mem_cons_of_mem x hy)) hrest)

/-- What the cart adds up. -/
def CartItem.priced (x : CartItem) : Rat × Rat := ((x.price : Rat) / 100, x.quantity)

theorem totalAmount_eq (items : List CartItem) : UseCart.totalAmount items = addUp (items.map CartItem.priced) := by
  rw [UseCart.totalAmount, addUp, List.foldl_map]
  rfl

theorem sum_ordered {items : List CartItem} {rows : List OrderItem} (h : List.Forall₂ CartItem.OrderedAs items rows) :
    ((rows.map OrderItem.amount).sum : Rat) / 100 = exactSum (items.map CartItem.priced) := by
  induction h with
  | nil => simp [exactSum]
  | @cons x i items rows hx _ ih =>
    have hquantity : (i.quantity : Rat) = x.quantity := by exact_mod_cast hx.quantity
    have hamount : (i.amount : Rat) / 100 = x.priced.1 * x.priced.2 := by
      rw [OrderItem.amount, Int.cast_mul, Int.cast_natCast, hx.price, hquantity, CartItem.priced, div_mul_eq_mul_div]
    rw [List.map_cons, List.sum_cons, Int.cast_add, add_div, ih, hamount]
    rfl

/-- The order comes to what the cart has shown, if nothing is rounded. -/
theorem total_ordered {items : List CartItem} {rows : List OrderItem} (h : List.Forall₂ CartItem.OrderedAs items rows)
    (hu : Unrounded (items.map CartItem.priced)) :
    ((rows.map OrderItem.amount).sum : Rat) / 100 = UseCart.totalAmount items := by
  rw [totalAmount_eq, addUp_eq hu, sum_ordered h]

end Menus

section Orders

variable {n : Nat} {owner : Uuid → Uuid} {lib : AdminLibrary} {P : Premises owner} {req : Fin n → Request}
  {h : House n} {qrToken : String} {page : QRResolveResponse} {actions : List CartAction} {D : Deployment owner}

/-- An order whose dishes are all on sale is placed, unless a portion count is beyond the column. -/
theorem order_answered {body : CreateOrderRequest} {table : Table} {restaurant : Restaurant}
    (hres : D.catalog.resolve qrToken = .ok (table, restaurant))
    (htaken : ∀ line ∈ body.items, ∃ m, D.catalog.accept restaurant.id line = .ok m) :
    (∃ response, (Request.createOrder qrToken body).response D.moment D.catalog D.data = .ok (.order response)) ↔
      ∀ line ∈ body.items, line.quantity ≤ int4Max := by
  obtain ⟨session, s₁, -, hends⟩ := Solo.createOrder_ends (s := D.moment.solo D.catalog D.data) rfl D.ok hres body
  rw [Request.createOrder_response]
  generalize ((D.moment.solo D.catalog D.data).run (Customer.createOrder qrToken body)).1 = answer at hends
  cases hends with
  | refused line hl e he =>
    obtain ⟨m, hm⟩ := htaken line hl
    have he' : D.catalog.accept restaurant.id line = .error e := he
    rw [hm] at he'
    cases he'
  | overflow ha hq =>
    obtain ⟨line, hl, hlarge⟩ := hq
    refine iff_of_false ?_ fun hall => absurd (hall line hl) (by omega)
    rintro ⟨response, hresponse⟩
    cases hresponse
  | placed ha hq response hs => exact iff_of_true ⟨response, rfl⟩ hq

/-- A cart is ordered exactly as it is shown, unless a portion count is beyond the column; the order
comes to the total shown, unless a price, an amount or a running sum is rounded. -/
theorem cart_ordered (hr : P.Reaches lib req h) (hc : D.catalog = h.office.catalog)
    (hpage : h.office.resolveQr qrToken = .ok page) (ht : Taps page.menu actions)
    (hne : (CartPage.run {} actions).items ≠ []) :
    ∃ body, CreateOrderRequest.validate ((CartPage.run {} actions).items.map CartItem.line) = some body ∧
      ((∃ response, (Request.createOrder qrToken body).response D.moment D.catalog D.data = .ok (.order response)) ↔
        ∀ x ∈ (CartPage.run {} actions).items, x.quantity ≤ int4Max) ∧
      ∀ response, (Request.createOrder qrToken body).response D.moment D.catalog D.data = .ok (.order response) →
        List.Forall₂ CartItem.OrderedAs (CartPage.run {} actions).items response.items ∧
          ((Request.createOrder qrToken body).effect D.moment D.catalog D.data).items =
            D.data.items ++ response.items ∧
          (Unrounded ((CartPage.run {} actions).items.map CartItem.priced) →
            ((response.items.map OrderItem.amount).sum : Rat) / 100 =
              UseCart.totalAmount (CartPage.run {} actions).items) := by
  have hlawful := hr.kept.lawful
  have hsound := (CartPage.ok_empty page.menu).run ht
  obtain ⟨body, hbody, hsent⟩ := validate_cart hsound.items.positive hne
  cases hres : h.office.catalog.resolve qrToken with
  | error e =>
    rw [Office.resolveQr_error hres] at hpage
    cases hpage
  | ok resolved =>
    obtain ⟨table, restaurant⟩ := resolved
    obtain ⟨page', hpage', hmenu⟩ := Office.resolveQr_ok hres
    rw [hpage] at hpage'
    cases hpage'
    have hlisted := hsound.items.listed
    rw [hmenu] at hlisted
    refine ⟨body, hbody, ?_, fun response hresponse => ?_⟩
    · have htaken : ∀ line ∈ body.items, ∃ m, D.catalog.accept restaurant.id line = .ok m := by
        intro line hline
        obtain ⟨x, hx, hxl⟩ := mem_sent hsent hline
        obtain ⟨m, hm, hid, -, -, hsold⟩ := (hlisted x hx).onSale hlawful
        rw [hc, Catalog.accept_iff hlawful.dishIds]
        exact ⟨m, hm, hid.trans hxl.dish.symm, hsold⟩
      rw [← quantities_fit hsent]
      exact order_answered (by rw [hc, hres]) htaken
    · obtain ⟨table', restaurant', session, order, rows, hres', haccepted, heq, -⟩ :=
        D.order_served le_rfl hresponse
      cases heq
      rw [hc, hres] at hres'
      cases hres'
      have hfills := haccepted.lines
      rw [hc] at hfills
      have hordered := ordered_all hlawful hlisted hsent hfills
      exact ⟨hordered, haccepted.rows, total_ordered hordered⟩

end Orders

section Cafe

def cafeDish : CustomerMenuItemResponse where
  id := 3
  name := "Phở bò"
  description := none
  price := 5000000
  prepTimeMinutes := 10
  isAvailable := true
  imageUrl := none
  imageLargeUrl := none
  isFeatured := false
  categoryId := some 6

/-- Another dish is added before the answer of the order. -/
def cafeTaps : List CartAction :=
  [.addItem cafeDish, .addItem cafeDish, .updateNote 3 " ít hành ", .submit, .addItem cafeDish, .ordered]

theorem cafeTaps_menu : Taps (cafeOffice.customerMenu 1) cafeTaps := by
  intro dish hd
  have hdish : dish = cafeDish := by
    simp only [cafeTaps, List.mem_cons, CartAction.addItem.injEq, reduceCtorEq, or_false, false_or,
      List.not_mem_nil] at hd
    tauto
  subst hdish
  decide +kernel

theorem cart_kept_cafe : (CartPage.run {} cafeTaps).Ok (cafeOffice.customerMenu 1) ∧
    CartPage.along (CartPage.askedBy 3) {} cafeTaps = 3 ∧ (CartPage.run {} cafeTaps).held 3 = 2 ∧
    CartPage.along (CartPage.lostBy 3) {} cafeTaps = 1 := by
  obtain ⟨hok, hsum, -⟩ := cart_kept cafeTaps_menu
  have hasked : CartPage.along (CartPage.askedBy 3) {} cafeTaps = 3 := by decide +kernel
  have hheld : (CartPage.run {} cafeTaps).held 3 = 2 := by decide +kernel
  -- three portions were asked for and two of them ordered, so one was lost
  refine ⟨hok, hasked, hheld, ?_⟩
  have hlost := hsum 3
  omega

theorem cart_ordered_cafe : ∃ page body response, cafeOffice.resolveQr "ban-1" = .ok page ∧
    CreateOrderRequest.validate ((CartPage.run {} (cafeTaps.take 3)).items.map CartItem.line) = some body ∧
    (Request.createOrder "ban-1" body).response cafe.moment cafe.catalog cafe.data = .ok (.order response) ∧
    UseCart.totalAmount (CartPage.run {} (cafeTaps.take 3)).items = 100000 ∧
    (response.items.map OrderItem.amount).sum = 10000000 := by
  have hr : cafePremises.Reaches cafeLibrary (fun _ : Fin 1 => cafeOrder) (cafePremises.house fun _ => cafeOrder) :=
    .refl
  have ht : Taps (cafeOffice.customerMenu 1) (cafeTaps.take 3) :=
    fun dish hd => cafeTaps_menu dish (List.mem_of_mem_take hd)
  obtain ⟨page, hpage, hmenu⟩ : ∃ page, cafeOffice.resolveQr "ban-1" = .ok page ∧
      page.menu = cafeOffice.customerMenu 1 := ⟨_, rfl, rfl⟩
  rw [← hmenu] at ht
  obtain ⟨body, hbody, hiff, hall⟩ := cart_ordered hr (D := cafe) rfl hpage ht (by decide)
  obtain ⟨response, hresponse⟩ := hiff.mpr (by decide)
  have hlines : (CartPage.run {} (cafeTaps.take 3)).items.map CartItem.priced =
      [(50000, 2)].map fun p : Nat × Nat => ((p.1 : Rat), (p.2 : Rat)) := by
    decide +kernel
  have hunrounded : Unrounded ((CartPage.run {} (cafeTaps.take 3)).items.map CartItem.priced) := by
    rw [hlines]
    exact unrounded_of_whole (by decide) (by decide)
  have htotal : UseCart.totalAmount (CartPage.run {} (cafeTaps.take 3)).items = 100000 := by
    rw [totalAmount_eq, addUp_eq hunrounded, hlines]
    decide +kernel
  refine ⟨page, body, response, hpage, hbody, hresponse, htotal, ?_⟩
  have hsum := (hall response hresponse).2.2 hunrounded
  rw [htotal, div_eq_iff (by norm_num)] at hsum
  have hcast : (((response.items.map OrderItem.amount).sum : Int) : Rat) = (10000000 : Int) := hsum.trans (by norm_num)
  exact Int.cast_injective hcast

end Cafe

end QOrder
