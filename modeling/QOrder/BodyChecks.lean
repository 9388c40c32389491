import QOrder.House
import QOrder.TokenAnswers

/-! The bodies that a schema accepts, against the columns they are written to. A field set to
null, a value beyond its column's range and a number in use are what the handlers let through. -/

namespace QOrder

open KeyedTable Concurrency MenuItemUpdate

/-- The connections to the database and to the object store hold. -/
structure Conditions.Up (c : Conditions) : Prop where
  commits : c.commits = true
  stores : ∀ key, c.put key = .stored

/-- The handlers that write a body, each with its arguments. -/
inductive BodyRequest
  | createOrder (qrToken : String) (body : CreateOrderRequest)
  | createMenuItem (user : TokenPayload) (body : MenuItemCreate)
  | updateMenuItem (user : TokenPayload) (itemId : Uuid) (body : MenuItemUpdate)
  | createMenuCategory (user : TokenPayload) (body : MenuCategoryCreate)
  | updateMenuCategory (user : TokenPayload) (categoryId : Uuid) (body : MenuCategoryUpdate)
  | createTable (user : TokenPayload) (body : TableCreate)
  | updateTable (user : TokenPayload) (tableId : Uuid) (body : TableUpdate)
  | updateSettings (user : TokenPayload) (body : UpdateSettingsRequest)

/-- The handler has succeeded or raised an `HTTPException`. -/
def Settled {α : Type} (answer : Except MenuError α) : Prop :=
  (∃ a, answer = .ok a) ∨ ∃ statusCode detail, answer = .error (.http statusCode detail)

section Columns

variable {α : Type} {field : Option (Option α)} {old : α} {P : α → Prop}

/-- The field is unset, or set to a value, not null, that satisfies `P`. -/
def Holds (field : Option (Option α)) (P : α → Prop) : Prop := ∀ v, field = some v → ∃ a, v = some a ∧ P a

theorem column_holds (field : Option (Option α)) (h : P old) :
    (∃ a, column field old = some a ∧ P a) ↔ Holds field P := by
  cases field with
  | none => simp [column, Holds, h]
  | some v => simp [column, Holds]

abbrev NotNull (field : Option (Option α)) : Prop := Holds field fun _ => True

abbrev FitsInt4 (field : Option (Option Nat)) : Prop := Holds field fun k => k ≤ int4Max

theorem column_notNull (old : α) : (∃ a, column field old = some a) ↔ NotNull field := by
  have h : (∃ a, column field old = some a ∧ True) ↔ NotNull field := column_holds field trivial
  simpa using h

theorem column_int4 {field : Option (Option Nat)} {old : Nat} (h : old ≤ int4Max) :
    (∃ k, column field old = some k ∧ k ≤ int4Max) ↔ FitsInt4 field :=
  column_holds (P := fun k => k ≤ int4Max) field h

structure MenuItemUpdate.Writable (u : MenuItemUpdate) : Prop where
  name : NotNull u.name
  price : Holds u.price fun p => toNumeric p < numericLimit
  prepTimeMinutes : FitsInt4 u.prepTimeMinutes
  isAvailable : NotNull u.isAvailable
  isActive : NotNull u.isActive
  isFeatured : NotNull u.isFeatured
  sortOrder : FitsInt4 u.sortOrder

structure MenuCategoryUpdate.Writable (u : MenuCategoryUpdate) : Prop where
  name : NotNull u.name
  sortOrder : FitsInt4 u.sortOrder
  isActive : NotNull u.isActive

structure UpdateSettingsRequest.Writable (u : UpdateSettingsRequest) : Prop where
  kitchenScreenRequiresPin : NotNull u.kitchenScreenRequiresPin
  currency : NotNull u.currency
  timezone : NotNull u.timezone
  defaultSavoryMinutes : FitsInt4 u.defaultSavoryMinutes
  defaultLightMinutes : FitsInt4 u.defaultLightMinutes
  sessionTimeoutHours : FitsInt4 u.sessionTimeoutHours
  staffCallCooldownSeconds : FitsInt4 u.staffCallCooldownSeconds
  reportSyncCron : NotNull u.reportSyncCron

/-- The number is no other table's of the restaurant. -/
structure TableUpdate.Writable (u : TableUpdate) (o : Office) (t : TableRecord) : Prop where
  tableNumber : Holds u.tableNumber fun s =>
    ∀ t' ∈ o.tables, t'.id ≠ t.id → t'.restaurantId = t.restaurantId → t'.tableNumber ≠ s
  isActive : NotNull u.isActive

theorem holds_price {field : Option (Option Rat)} {p : Money} (h : p < numericLimit) :
    (∃ a, column (field.map (Option.map toNumeric)) p = some a ∧ a < numericLimit) ↔
      Holds field fun p => toNumeric p < numericLimit := by
  rw [column_holds (P := fun a => a < numericLimit) _ h]
  cases field with
  | none => simp [Holds]
  | some v => cases v <;> simp [Holds]

end Columns

section Updates

theorem MenuItemUpdate.apply_fits {u : MenuItemUpdate} {i : MenuItemRow} (h : i.fits = true) :
    (∃ row, u.apply i = some row ∧ row.fits = true) ↔ u.Writable := by
  simp only [MenuItemRow.fits, Bool.and_eq_true, decide_eq_true_eq] at h
  obtain ⟨⟨hprice, hprep⟩, hsort⟩ := h
  constructor
  · rintro ⟨row, happly, hfits⟩
    simp only [MenuItemUpdate.apply, Option.bind_eq_bind, Option.bind_eq_some_iff, Option.pure_def,
      Option.some.injEq] at happly
    obtain ⟨name, hn, price, hp, prep, ht, available, ha, active, hc, featured, hf, sort, hs, rfl⟩ := happly
    simp only [MenuItemRow.fits, Bool.and_eq_true, decide_eq_true_eq] at hfits
    exact ⟨(column_notNull _).mp ⟨_, hn⟩, (holds_price hprice).mp ⟨_, hp, hfits.1.1⟩,
      (column_int4 hprep).mp ⟨_, ht, hfits.1.2⟩, (column_notNull _).mp ⟨_, ha⟩,
      (column_notNull _).mp ⟨_, hc⟩, (column_notNull _).mp ⟨_, hf⟩,
      (column_int4 hsort).mp ⟨_, hs, hfits.2⟩⟩
  · intro hw
    obtain ⟨name, hn⟩ := (column_notNull i.name).mpr hw.name
    obtain ⟨price, hp, hplimit⟩ := (holds_price hprice).mpr hw.price
    obtain ⟨prep, ht, htlimit⟩ := (column_int4 hprep).mpr hw.prepTimeMinutes
    obtain ⟨available, ha⟩ := (column_notNull i.isAvailable).mpr hw.isAvailable
    obtain ⟨active, hc⟩ := (column_notNull i.isActive).mpr hw.isActive
    obtain ⟨featured, hf⟩ := (column_notNull i.isFeatured).mpr hw.isFeatured
    obtain ⟨sort, hs, hslimit⟩ := (column_int4 hsort).mpr hw.sortOrder
    simp [MenuItemUpdate.apply, hn, hp, ht, ha, hc, hf, hs, MenuItemRow.fits, hplimit, htlimit, hslimit]

theorem MenuCategoryUpdate.apply_fits {u : MenuCategoryUpdate} {g : CategoryRecord} (h : g.fits = true) :
    (∃ row, u.apply g = some row ∧ row.fits = true) ↔ u.Writable := by
  have hsort := of_decide_eq_true h
  constructor
  · rintro ⟨row, happly, hfits⟩
    simp only [MenuCategoryUpdate.apply, Option.bind_eq_bind, Option.bind_eq_some_iff, Option.pure_def,
      Option.some.injEq] at happly
    obtain ⟨name, hn, sort, hs, active, hc, rfl⟩ := happly
    exact ⟨(column_notNull _).mp ⟨_, hn⟩,
      (column_int4 hsort).mp ⟨_, hs, of_decide_eq_true hfits⟩, (column_notNull _).mp ⟨_, hc⟩⟩
  · intro hw
    obtain ⟨name, hn⟩ := (column_notNull g.name).mpr hw.name
    obtain ⟨sort, hs, hslimit⟩ := (column_int4 hsort).mpr hw.sortOrder
    obtain ⟨active, hc⟩ := (column_notNull g.isActive).mpr hw.isActive
    simp [MenuCategoryUpdate.apply, hn, hs, hc, CategoryRecord.fits, hslimit]

theorem UpdateSettingsRequest.apply_fits {u : UpdateSettingsRequest} {s : SettingsRecord}
    (h : s.fits = true) : (∃ row, u.apply s = some row ∧ row.fits = true) ↔ u.Writable := by
  simp only [SettingsRecord.fits, Bool.and_eq_true, decide_eq_true_eq] at h
  obtain ⟨⟨⟨hsavory, hlight⟩, htimeout⟩, hcooldown⟩ := h
  constructor
  · rintro ⟨row, happly, hfits⟩
    simp only [UpdateSettingsRequest.apply, Option.bind_eq_bind, Option.bind_eq_some_iff, Option.pure_def,
      Option.some.injEq] at happly
    obtain ⟨pin, hp, currency, hc, timezone, hz, savory, hs, light, hl, timeout, ht, cooldown, hd, cron, hn,
      rfl⟩ := happly
    simp only [SettingsRecord.fits, Bool.and_eq_true, decide_eq_true_eq] at hfits
    exact ⟨(column_notNull _).mp ⟨_, hp⟩, (column_notNull _).mp ⟨_, hc⟩,
      (column_notNull _).mp ⟨_, hz⟩, (column_int4 hsavory).mp ⟨_, hs, hfits.1.1.1⟩,
      (column_int4 hlight).mp ⟨_, hl, hfits.1.1.2⟩, (column_int4 htimeout).mp ⟨_, ht, hfits.1.2⟩,
      (column_int4 hcooldown).mp ⟨_, hd, hfits.2⟩, (column_notNull _).mp ⟨_, hn⟩⟩
  · intro hw
    obtain ⟨pin, hp⟩ := (column_notNull s.kitchenScreenRequiresPin).mpr hw.kitchenScreenRequiresPin
    obtain ⟨currency, hc⟩ := (column_notNull s.currency).mpr hw.currency
    obtain ⟨timezone, hz⟩ := (column_notNull s.timezone).mpr hw.timezone
    obtain ⟨savory, hs, hslimit⟩ := (column_int4 hsavory).mpr hw.defaultSavoryMinutes
    obtain ⟨light, hl, hllimit⟩ := (column_int4 hlight).mpr hw.defaultLightMinutes
    obtain ⟨timeout, ht, htlimit⟩ := (column_int4 htimeout).mpr hw.sessionTimeoutHours
    obtain ⟨cooldown, hd, hdlimit⟩ := (column_int4 hcooldown).mpr hw.staffCallCooldownSeconds
    obtain ⟨cron, hn⟩ := (column_notNull s.reportSyncCron).mpr hw.reportSyncCron
    simp [UpdateSettingsRequest.apply, hp, hc, hz, hs, hl, ht, hd, hn, SettingsRecord.fits, hslimit, hllimit,
      htlimit, hdlimit]

theorem TableUpdate.apply_free {u : TableUpdate} {o : Office} {t : TableRecord} (ht : t ∈ o.tables)
    (h : o.Lawful) : (∃ row, u.apply t = some row ∧ o.tableConflict row = false) ↔ u.Writable o t := by
  have hfree := Office.tableConflict_eq_false.mp (h.tables t ht)
  have hold : ∀ t' ∈ o.tables, t'.id ≠ t.id → t'.restaurantId = t.restaurantId → t'.tableNumber ≠ t.tableNumber :=
    fun t' ht' hne hr hn => (hfree t' ht' hne).2 ⟨hr, hn⟩
  constructor
  · rintro ⟨row, happly, hc⟩
    simp only [TableUpdate.apply, Option.bind_eq_bind, Option.bind_eq_some_iff, Option.pure_def,
      Option.some.injEq] at happly
    obtain ⟨number, hn, active, ha, rfl⟩ := happly
    have hc' := Office.tableConflict_eq_false.mp hc
    exact ⟨(column_holds _ hold).mp ⟨_, hn, fun t' ht' hne hr he => (hc' t' ht' hne).2 ⟨hr, he⟩⟩,
      (column_notNull _).mp ⟨_, ha⟩⟩
  · intro hw
    obtain ⟨number, hn, hnumber⟩ := (column_holds _ hold).mpr hw.tableNumber
    obtain ⟨active, ha⟩ := (column_notNull t.isActive).mpr hw.isActive
    refine ⟨{ t with tableNumber := number, isActive := active }, by simp [TableUpdate.apply, hn, ha], ?_⟩
    rw [Office.tableConflict_eq_false]
    exact fun t' ht' hne => ⟨(hfree t' ht' hne).1, fun he => hnumber t' ht' hne he.1 he.2⟩

end Updates

end QOrder
