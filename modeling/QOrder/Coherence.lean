import QOrder.MenuTenancy
import QOrder.RestaurantRegions
import QOrder.SwitchedOff

/-! The restaurants of the rows agree along their references, those to the offices' rows too, in
every state that the house reaches. -/

namespace QOrder

open KeyedTable Concurrency

/-- A row and the rows that it refers to are of one restaurant. -/
structure Site.Coherent (σ : Site) : Prop where
  session : ∀ s ∈ σ.data.sessions, ∀ t ∈ σ.office.tables, t.id = s.tableId → t.restaurantId = s.restaurantId
  order : ∀ o ∈ σ.data.orders, ∃ s ∈ σ.data.sessions, s.id = o.tableSessionId ∧ s.restaurantId = o.restaurantId
  item : ∀ i ∈ σ.data.items, ∃ o ∈ σ.data.orders, o.id = i.orderId ∧ o.restaurantId = i.restaurantId
  menuItem : ∀ i ∈ σ.data.items, ∃ x ∈ σ.office.items, x.id = i.menuItemId ∧ x.restaurantId = i.restaurantId
  call : ∀ x ∈ σ.data.calls, ∃ s ∈ σ.data.sessions, s.id = x.tableSessionId ∧ s.restaurantId = x.restaurantId ∧
    s.tableId = x.tableId
  callTable : ∀ x ∈ σ.data.calls, ∀ t ∈ σ.office.tables, t.id = x.tableId → t.restaurantId = x.restaurantId

section Chain

variable {owner : Uuid → Uuid} {σ : Site}

theorem Site.Coherent.tenanted (h : σ.Coherent) (hd : σ.data.Ok owner) : σ.data.Tenanted where
  order ho := by
    obtain ⟨s, hs, hid, hr⟩ := h.order _ (mem_of_lookup ho)
    exact ⟨s, hid ▸ hd.mem_sessions.mp hs, hr⟩
  item hi := by
    obtain ⟨o, ho, hid, hr⟩ := h.item _ (mem_of_lookup hi)
    exact ⟨o, hid ▸ hd.mem_orders.mp ho, hr⟩

theorem Site.Coherent.seated (h : σ.Coherent) (hd : σ.data.Ok owner) : σ.data.Seated := by
  intro x hx
  obtain ⟨s, hs, hid, -, ht⟩ := h.call x hx
  exact ⟨s, hid ▸ hd.mem_sessions.mp hs, ht⟩

theorem Data.Chained.coherent (h : σ.data.Chained owner) (ho : σ.office.catalog.Owned owner)
    (hdish : ∀ i ∈ σ.data.items, ∃ x ∈ σ.office.items, x.id = i.menuItemId ∧ x.restaurantId = i.restaurantId) :
    σ.Coherent := by
  have htable {t : TableRecord} (ht : t ∈ σ.office.tables) {s : TableSession} (hs : s ∈ σ.data.sessions)
      (hid : t.id = s.tableId) : t.restaurantId = s.restaurantId := by
    have hown : t.restaurantId = owner t.id := ho t.toTable (List.mem_map_of_mem ht)
    rw [hown, hid, h.ok.restaurant s hs]
  refine ⟨fun s hs t ht hid => htable ht hs hid, fun o ho => ?_, fun i hi => ?_, hdish, fun x hx => ?_,
    fun x hx t ht hid => ?_⟩
  · obtain ⟨s, hs, hr⟩ := h.tenanted.order (h.ok.mem_orders.mp ho)
    exact ⟨s, mem_of_lookup hs, key_of_lookup hs, hr⟩
  · obtain ⟨o, ho, hr⟩ := h.tenanted.item (h.ok.mem_items.mp hi)
    exact ⟨o, mem_of_lookup ho, key_of_lookup ho, hr⟩
  · obtain ⟨s, hs, hr⟩ := h.ok.callSession x hx
    obtain ⟨s', hs', ht⟩ := h.seated x hx
    rw [hs] at hs'
    cases hs'
    exact ⟨s, mem_of_lookup hs, key_of_lookup hs, hr, ht⟩
  · obtain ⟨s, hs, hr⟩ := h.ok.callSession x hx
    obtain ⟨s', hs', hseat⟩ := h.seated x hx
    rw [hs] at hs'
    cases hs'
    rw [htable ht (mem_of_lookup hs) (hid.trans hseat.symm), hr]

end Chain

section Menu

variable {user : TokenPayload} {draws : Draws} {o o' o'' : Office} {l : List (Uuid × String)}

/-- A menu item is never deleted, and stays with its restaurant. -/
def Office.KeepsItems (o o' : Office) : Prop :=
  ∀ x ∈ o.items, ∃ x' ∈ o'.items, x'.id = x.id ∧ x'.restaurantId = x.restaurantId

theorem Office.KeepsItems.refl (o : Office) : o.KeepsItems o := fun x hx => ⟨x, hx, rfl, rfl⟩

theorem Office.KeepsItems.trans (h : o.KeepsItems o') (h' : o'.KeepsItems o'') : o.KeepsItems o'' := by
  intro x hx
  obtain ⟨x', hx', hid, hr⟩ := h x hx
  obtain ⟨x'', hx'', hid', hr'⟩ := h' x' hx'
  exact ⟨x'', hx'', hid'.trans hid, hr'.trans hr⟩

theorem Office.Wrote.keepsItems (hw : Office.Wrote user draws o l o') (h : o.Lawful) (hf : o.Fresh draws) :
    o.KeepsItems o' := by
  cases hw with
  | item row store hr hfits hid =>
    intro x hx
    by_cases hkey : x.id = row.id
    · refine ⟨row, (mem_overlay_one h.itemIds).mpr (.inl rfl), hkey.symm, ?_⟩
      rcases hid with hid | ⟨i, hi, hid, hr'⟩
      · exact absurd (hkey.trans hid) (lookup_eq_none.mp hf.item x hx)
      · rw [eq_of_key_eq h.itemIds hx hi (hkey.trans hid.symm), hr, hr']
    · exact ⟨x, (mem_overlay_one h.itemIds).mpr (.inr ⟨hx, hkey⟩), rfl, rfl⟩
  | _ => exact .refl o

end Menu

section Reached

variable {n : Nat} {owner : Uuid → Uuid} {lib : AdminLibrary} {P : Premises owner} {req : Fin n → Request}
  {h h' : House n}

/-- The menu items that the house has ever had are there still. -/
structure House.KeepsMenu (P : Premises owner) (h : House n) : Prop where
  first : P.office.KeepsItems h.office
  history : ∀ e ∈ h.clients.state.history, ∀ x ∈ e.catalog.menuItems,
    ∃ x' ∈ h.office.items, x'.id = x.id ∧ x'.restaurantId = x.restaurantId

theorem House.KeepsMenu.edit (hk : h.KeepsMenu P) {office : Office} (ho : h.office.KeepsItems office)
    (issues : List (Uuid × String)) : (h.edit office issues).KeepsMenu P where
  first := hk.first.trans ho
  history e he x hx := by
    obtain ⟨x', hx', hid, hr⟩ := hk.history e he x hx
    obtain ⟨x'', hx'', hid', hr'⟩ := ho x' hx'
    exact ⟨x'', hx'', hid'.trans hid, hr'.trans hr⟩

theorem House.KeepsMenu.step (hk : h.KeepsMenu P) (hkept : h.Kept) (hs : h.Step lib owner h') : h'.KeepsMenu P := by
  cases hs with
  | client hs hc =>
    refine ⟨hk.first, ?_⟩
    cases hs with
    | env he => cases he <;> exact hk.history
    | @exec t q k r σ hp hx =>
      have hhist : σ.history = h.clients.state.history ++ [h.clients.state.event t q r σ.data] := by
        cases hx <;> rfl
      intro e he x hx
      change e ∈ σ.history at he
      rw [hhist, List.mem_append, List.mem_singleton] at he
      rcases he with he | rfl
      · exact hk.history e he x hx
      · change x ∈ h.clients.state.catalog.menuItems at hx
        rw [hkept.synced] at hx
        obtain ⟨row, hrow, rfl⟩ := List.mem_map.mp hx
        exact ⟨row, hrow, rfl, rfl⟩
  | admin user draws r hf hq ho => exact hk.edit (r.wrote.keepsItems hkept.lawful hf) _
  | switch restaurantId isActive =>
    have hsame : h.office.KeepsItems (h.office.switch restaurantId isActive) := fun x hx => ⟨x, hx, rfl, rfl⟩
    exact hk.edit hsame []

theorem Premises.Reaches.keepsMenu (hr : P.Reaches lib req h) : h.KeepsMenu P := by
  induction hr with
  | refl =>
    refine ⟨.refl P.office, fun e he => ?_⟩
    cases he
  | tail hr hs ih => exact ih.step (Premises.Reaches.kept hr) hs

def Premises.site (P : Premises owner) : Site := ⟨P.office, P.data⟩

theorem Premises.Reaches.chained (hr : P.Reaches lib req h) (h₀ : P.site.Coherent) :
    h.clients.state.data.Chained owner :=
  hr.clients.chained (h₀.tenanted P.ok) (h₀.seated P.ok)

/-- In every state reached. -/
theorem Premises.Reaches.coherent (hr : P.Reaches lib req h) (h₀ : P.site.Coherent) : h.site.Coherent := by
  have hmenu := hr.keepsMenu
  let dish (id rid : Uuid) : Prop := ∃ x ∈ h.office.items, x.id = id ∧ x.restaurantId = rid
  have hdata : P.data.Dishes dish := by
    intro i hi
    obtain ⟨x, hx, hid, hr⟩ := h₀.menuItem i hi
    obtain ⟨x', hx', hid', hr'⟩ := hmenu.first x hx
    exact ⟨x', hx', hid'.trans hid, hr'.trans hr⟩
  refine (hr.chained h₀).coherent ?_ (hr.clients.dishes hdata hmenu.history)
  have howned := hr.clients.inv.owned
  rwa [hr.kept.synced] at howned

end Reached

end QOrder
