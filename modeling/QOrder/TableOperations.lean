import QOrder.Effects
import QOrder.TableRegions

/-! Two operations aimed at different tables: in whichever order they are executed, they
answer the same and leave the same data. -/

namespace QOrder

open KeyedTable Concurrency

variable {n : Nat} {owner : Uuid → Uuid} {req : Fin n → Request} {D : Deployment owner}
  {p : Clients n} {a b : Request} {t u : Uuid} {wa wb : Moment}

/-- What the order of two operations makes no difference to. -/
structure Exchange (c : Catalog) (d : Data) (a b : Request) (t u : Uuid) (wa wb : Moment) : Prop where
  first : a.response wa c (b.effect wb c d) = a.response wa c d
  second : b.response wb c (a.effect wa c d) = b.response wb c d
  database : (b.effect wb c (a.effect wa c d)).Same (a.effect wa c (b.effect wb c d))
  others : ((a.effect wa c d).atTable u = d.atTable u ∧ (b.effect wb c d).atTable t = d.atTable t) ∧
    (b.effect wb c (a.effect wa c d)).atTable t = (a.effect wa c d).atTable t ∧
    (a.effect wa c (b.effect wb c d)).atTable u = (b.effect wb c d).atTable u

/-- Data that agree region by region are the same. -/
theorem Data.same_of_parts {m : Atlas Uuid} {d d' : Data} (h : ∀ z, d.part m z = d'.part m z) :
    d.Same d' where
  sessions := perm_of_parts fun z => congrArg Data.sessions (h z)
  orders := perm_of_parts fun z => congrArg Data.orders (h z)
  items := perm_of_parts fun z => congrArg Data.items (h z)
  calls := perm_of_parts fun z => congrArg Data.calls (h z)

/-- Operations of different regions. -/
theorem exchange_of_regions {m : Atlas Uuid} {c : Catalog} {d : Data} (hm : m.table = id)
    (htu : t ≠ u) (ha : a.Within m t) (hb : b.Within m u) (hc : ∀ z, c.Charted m z) (hd : d.Placed m)
    (hfa : ∀ id, a.Generates wa c d id → m.Free id t) (hfb : ∀ id, b.Generates wb c d id → m.Free id u)
    (hok : d.Ok owner) (hoka : (a.effect wa c d).Ok owner) (hokb : (b.effect wb c d).Ok owner) :
    Exchange c d a b t u wa wb := by
  have halike (z : Uuid) : c.Alike m z c := fun _ _ _ _ => rfl
  have ha₀ := Request.same ha (hc t) (hc t) (halike t) hd hd rfl hfa
  have hb₀ := Request.same hb (hc u) (hc u) (halike u) hd hd rfl hfb
  have ha₁ := Request.same ha (hc t) (hc t) (halike t) hd hb₀.placed (hb₀.rest t htu) hfa
  have hb₁ := Request.same hb (hc u) (hc u) (halike u) hd ha₀.placed (ha₀.rest u htu.symm) hfb
  refine ⟨ha₁.response, hb₁.response, Data.same_of_parts (m := m) fun z => ?_, ⟨?_, ?_⟩, ?_, ?_⟩
  · by_cases ht : z = t
    · rw [hb₁.rest' z (ht ▸ htu), ht, ha₁.part]
    · by_cases hu : z = u
      · rw [ha₁.rest' z ht, hu, hb₁.part]
      · rw [hb₁.rest' z hu, ha₁.rest' z ht, ha₀.rest z ht, hb₀.rest z hu]
  · rw [ha₀.placed.atTable hm (hoka.resolved_part ha₀.placed), hd.atTable hm (hok.resolved_part hd),
      ha₀.rest u htu.symm]
  · rw [hb₀.placed.atTable hm (hokb.resolved_part hb₀.placed), hd.atTable hm (hok.resolved_part hd),
      hb₀.rest t htu]
  · have hr := hoka.resolved_part (t := t) ha₀.placed
    rw [ha₀.placed.atTable hm hr, hb₁.placed'.atTable hm (hb₁.rest' t htu ▸ hr), hb₁.rest' t htu]
  · have hr := hokb.resolved_part (t := u) hb₀.placed
    rw [hb₀.placed.atTable hm hr, ha₁.placed'.atTable hm (ha₁.rest' u htu.symm ▸ hr), ha₁.rest' u htu.symm]

/-- Operations aimed at different tables can be exchanged, and neither touches a row at the
other's table. -/
theorem different_tables (hr : D.Reaches req p) (h₀ : D.data.Seated) (htu : t ≠ u)
    (ha : a.Aims p.state.catalog p.state.data t) (hb : b.Aims p.state.catalog p.state.data u)
    (hwa : p.state.nextUuid ≤ wa.nextUuid) (hwb : p.state.nextUuid ≤ wb.nextUuid)
    (hids : ∀ id, a.Generates wa p.state.catalog p.state.data id →
      ¬ b.Generates wb p.state.catalog p.state.data id) :
    Exchange p.state.catalog p.state.data a b t u wa wb := by
  classical
  let new (id : Uuid) : Uuid := if a.Generates wa p.state.catalog p.state.data id then t else u
  have hok := hr.inv.ok
  have hbelow := hr.inv.below
  have hd : p.state.data.Placed (tableAtlas p.state.catalog p.state.data new) :=
    hok.placed_table (hr.seated h₀)
  refine exchange_of_regions rfl htu ha.within hb.within (fun _ => charted_table) hd ?_ ?_ hok
    (hr.effect_ok hwa a) (hr.effect_ok hwb b)
  · intro id h
    exact hbelow.free_table (hwa.trans h.1) (if_pos h)
  · intro id h
    exact hbelow.free_table (hwb.trans h.1) (if_neg fun h' => hids id h' h)

section Cafe

/-- The café with a second table. -/
def cafeTables : Deployment fun _ => 1 :=
  { cafeOrdered with
    catalog := { cafe.catalog with
      tables := [{ id := 2, restaurantId := 1, qrToken := "ban-1" }, { id := 5, restaurantId := 1, qrToken := "ban-2" }] }
    owned := by simp [Catalog.Owned] }

/-- An order at one table and a call at the other. -/
theorem different_tables_cafe :
    Exchange cafeTables.catalog cafeTables.data cafeOrder (.callStaff "ban-2") 2 5 ⟨5, 5, 20⟩ ⟨6, 6, 30⟩ := by
  have hr : cafeTables.Reaches (fun _ : Fin 1 => cafeOrder) (cafeTables.start fun _ : Fin 1 => cafeOrder) := .refl
  have hlast : (cafeOrder.execute ⟨5, 5, 20⟩ cafeTables.catalog cafeTables.data).2.nextUuid = 22 := by
    decide +kernel
  refine different_tables hr (fun c hc => by cases hc) (by decide) ?_ ?_ (by decide) (by decide) ?_
  · intro table h
    cases h
    rfl
  · intro table h
    cases h
    rfl
  · rintro id ⟨-, hlt⟩ ⟨hle, -⟩
    have h : (30 : Nat) < 22 := hle.trans_lt (hlast ▸ hlt)
    exact absurd h (by decide)

end Cafe

end QOrder
