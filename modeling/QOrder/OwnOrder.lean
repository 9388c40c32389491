import QOrder.MenuPage

/-! The page's own order. The answer of `createOrder` and the messages about the same items
come over different connections, in any order. -/

namespace QOrder

namespace MenuPage

/-- The status that a message brings for the item. -/
def statusFor (id : Uuid) : RealtimeEvent → Option OrderItemStatus
  | .itemUpdated itemId status _ => if itemId = id then some status else none
  | .itemCancelled itemId _ _ _ => if itemId = id then some .cancelled else none
  | _ => none

/-- The status of the last message about the item, or the given one without any. -/
def lastStatus (id : Uuid) (status : OrderItemStatus) (events : List RealtimeEvent) : OrderItemStatus :=
  events.foldl (fun status event => (statusFor id event).getD status) status

/-- The page has the item of the answer exactly once, with all its data and this status. -/
def Shows (page : Page) (orderId : Uuid) (i : OrderItem) (status : OrderItemStatus) : Prop :=
  ∃ cancelledAt, (page.filter fun x => x.id = i.id) = [{ ofResponse orderId i with status, cancelledAt }]

variable {page byId : Page} {item : SessionItem} {id orderId : Uuid} {i : OrderItem}
  {items : List OrderItem} {status : OrderItemStatus} {now : Timestamp}

section Upsert

theorem mapSet_ids (h : (byId.map SessionItem.id).Nodup) : ((mapSet byId item).map SessionItem.id).Nodup := by
  unfold mapSet
  by_cases hc : item.id ∈ byId.map SessionItem.id
  · have hids : SessionItem.id ∘ (fun i : SessionItem => if i.id = item.id then item else i) = SessionItem.id := by
      funext x
      by_cases hx : x.id = item.id <;> simp [hx]
    rw [if_pos (List.contains_iff_mem.mpr hc), List.map_map, hids]
    exact h
  · rw [if_neg fun hm => hc (List.contains_iff_mem.mp hm), List.map_append]
    exact List.nodup_append.mpr ⟨h, List.nodup_singleton _, by
      rintro _ ha _ hb rfl
      exact hc ((List.mem_singleton.mp hb) ▸ ha)⟩

theorem filter_mapSet_self (item : SessionItem) (h : (byId.map SessionItem.id).Nodup) :
    ((mapSet byId item).filter fun x => x.id = item.id) = [item] := by
  unfold mapSet
  by_cases hc : item.id ∈ byId.map SessionItem.id
  · rw [if_pos (List.contains_iff_mem.mpr hc)]
    obtain ⟨x, hx, hid⟩ := List.mem_map.mp hc
    obtain ⟨pre, post, rfl⟩ := List.append_of_mem hx
    have hn := h
    rw [List.map_append, List.map_cons, List.nodup_append] at hn
    obtain ⟨-, hpost, hpre⟩ := hn
    have hpre' : ∀ y ∈ pre, y.id ≠ item.id := by
      intro y hy he
      exact hpre _ (List.mem_map_of_mem hy) _ List.mem_cons_self (he.trans hid.symm)
    have hpost' : ∀ y ∈ post, y.id ≠ item.id := by
      intro y hy he
      refine (List.nodup_cons.mp hpost).1 ?_
      rw [hid, ← he]
      exact List.mem_map_of_mem hy
    rw [List.map_append, List.map_cons, if_pos hid, List.map_congr_left fun y hy => if_neg (hpre' y hy),
      List.map_congr_left fun y hy => if_neg (hpost' y hy), List.map_id', List.map_id', List.filter_append]
    have h₁ : pre.filter (fun x => x.id = item.id) = [] := by
      rw [List.filter_eq_nil_iff]
      simpa using hpre'
    have h₂ : post.filter (fun x => x.id = item.id) = [] := by
      rw [List.filter_eq_nil_iff]
      simpa using hpost'
    simp [h₁, h₂]
  · have hnone : byId.filter (fun x => x.id = item.id) = [] := by
      rw [List.filter_eq_nil_iff]
      intro y hy he
      refine hc ?_
      rw [← of_decide_eq_true he]
      exact List.mem_map_of_mem hy
    rw [if_neg fun hm => hc (List.contains_iff_mem.mp hm), List.filter_append, hnone]
    simp

theorem filter_mapSet_other (h : item.id ≠ id) :
    ((mapSet byId item).filter fun x => x.id = id) = byId.filter fun x => x.id = id := by
  unfold mapSet
  split
  next hc =>
    clear hc
    induction byId with
    | nil => rfl
    | cons x byId ih =>
      by_cases hx : x.id = item.id
      · have hne : x.id ≠ id := hx ▸ h
        simpa [hx, h] using ih
      · rw [List.map_cons, if_neg hx, List.filter_cons, List.filter_cons, ih]
  next => simp [h]

theorem mapSets_ids (new : Page) {byId : Page} (h : (byId.map SessionItem.id).Nodup) :
    ((new.foldl mapSet byId).map SessionItem.id).Nodup := by
  induction new generalizing byId with
  | nil => exact h
  | cons x new ih => exact ih (mapSet_ids h)

theorem filter_mapSets_other (new : Page) (h : ∀ x ∈ new, x.id ≠ id) :
    ((new.foldl mapSet byId).filter fun x => x.id = id) = byId.filter fun x => x.id = id := by
  induction new generalizing byId with
  | nil => rfl
  | cons x new ih =>
    rw [List.foldl_cons, ih fun y hy => h y (List.mem_cons_of_mem _ hy),
      filter_mapSet_other (h x List.mem_cons_self)]

/-- Whatever the page has shown of it, an item of the answer is there as the answer has it. -/
theorem handleSubmitOrder_shows (hids : (items.map OrderItem.id).Nodup) (hi : i ∈ items) :
    Shows (handleSubmitOrder orderId items page) orderId i i.status := by
  obtain ⟨pre, post, rfl⟩ := List.append_of_mem hi
  rw [List.map_append, List.map_cons, List.nodup_append] at hids
  obtain ⟨-, hpost, -⟩ := hids
  have hother : ∀ x ∈ post.map (ofResponse orderId), x.id ≠ i.id := by
    intro x hx he
    obtain ⟨j, hj, rfl⟩ := List.mem_map.mp hx
    refine (List.nodup_cons.mp hpost).1 ?_
    rw [← he]
    exact List.mem_map_of_mem hj
  refine ⟨none, ?_⟩
  rw [handleSubmitOrder, List.map_append, List.map_cons, List.foldl_append, List.foldl_cons,
    filter_mapSets_other _ hother]
  have hempty : (([] : Page).map SessionItem.id).Nodup := List.nodup_nil
  have hn := mapSets_ids (pre.map (ofResponse orderId)) (mapSets_ids page hempty)
  exact filter_mapSet_self (ofResponse orderId i) hn

end Upsert

section Receive

theorem filter_map_item (page : Page) (id : Uuid) {f : SessionItem → SessionItem}
    (hf : ∀ x, (f x).id = x.id) :
    ((page.map f).filter fun x => x.id = id) = (page.filter fun x => x.id = id).map f := by
  rw [List.filter_map]
  congr 1
  refine List.filter_congr fun x _ => ?_
  simp [hf]

/-- A message changes the item it is about, and no other. -/
theorem Shows.handles (event : RealtimeEvent) (h : Shows page orderId i status) :
    Shows (handleWsEvent now page event) orderId i ((statusFor i.id event).getD status) := by
  obtain ⟨cancelledAt, hx⟩ := h
  have hid : (ofResponse orderId i).id = i.id := rfl
  have keeps : ∀ page', (page'.filter fun x => x.id = i.id) = (page.filter fun x => x.id = i.id) →
      Shows page' orderId i status := fun page' he => ⟨cancelledAt, he.trans hx⟩
  cases event with
  | itemUpdated itemId status' itemOrderId =>
    have hf : ∀ x : SessionItem, (if x.id = itemId then { x with status := status' } else x).id = x.id := by
      intro x
      split <;> rfl
    have hm := filter_map_item page i.id hf
    rw [hx] at hm
    by_cases he : i.id = itemId
    · refine ⟨cancelledAt, hm.trans ?_⟩
      simp [he, hid, statusFor]
    · refine ⟨cancelledAt, hm.trans ?_⟩
      simp [he, hid, statusFor, Ne.symm he]
  | itemCancelled itemId status' cancelledBy itemOrderId =>
    have hf : ∀ x : SessionItem, (if x.id = itemId then
        { x with status := .cancelled, cancelledAt := some now } else x).id = x.id := by
      intro x
      split <;> rfl
    have hm := filter_map_item page i.id hf
    rw [hx] at hm
    by_cases he : i.id = itemId
    · refine ⟨some now, hm.trans ?_⟩
      simp [he, hid, statusFor]
    · refine ⟨cancelledAt, hm.trans ?_⟩
      simp [he, hid, statusFor, Ne.symm he]
  | orderCreated newOrderId tableSessionId published =>
    refine keeps _ ?_
    have hknown : i.id ∈ page.map SessionItem.id := by
      have hmem : ({ ofResponse orderId i with status, cancelledAt } : SessionItem) ∈
          page.filter fun x => x.id = i.id := by
        rw [hx]
        exact List.mem_singleton_self _
      exact List.mem_map.mpr ⟨_, (List.mem_filter.mp hmem).1, rfl⟩
    have hnone : ((published.filter fun x => !(page.map SessionItem.id).contains x.id).map
        ofPublished).filter (fun x => x.id = i.id) = [] := by
      rw [List.filter_eq_nil_iff]
      intro y hy he
      obtain ⟨x, hx', rfl⟩ := List.mem_map.mp hy
      have hnew := (List.mem_filter.mp hx').2
      have hid' : x.id = i.id := of_decide_eq_true he
      rw [hid', List.contains_iff_mem.mpr hknown] at hnew
      cases hnew
    rw [handleWsEvent, List.filter_append, hnone, List.append_nil]
  | _ => exact keeps _ rfl

theorem Shows.receive (events : List (Timestamp × RealtimeEvent)) (h : Shows page orderId i status) :
    Shows (receive events page) orderId i (lastStatus i.id status (events.map Prod.snd)) := by
  induction events generalizing page status with
  | nil => exact h
  | cons e events ih => exact ih (h.handles e.2)

theorem Shows.status_eq {status' : OrderItemStatus} (h : Shows page orderId i status)
    (h' : Shows page orderId i status') : status = status' := by
  obtain ⟨_, hx⟩ := h
  obtain ⟨_, hx'⟩ := h'
  rw [hx] at hx'
  have he := congrArg SessionItem.status (List.singleton_inj.mp hx')
  exact he

end Receive

section Last

variable {before after : List RealtimeEvent}

theorem lastStatus_append : lastStatus id status (before ++ after) =
    lastStatus id (lastStatus id status before) after := List.foldl_append ..

theorem lastStatus_none (h : ∀ event ∈ after, statusFor id event = none) :
    lastStatus id status after = status := by
  induction after generalizing status with
  | nil => rfl
  | cons event after ih =>
    have he := h event List.mem_cons_self
    rw [lastStatus, List.foldl_cons, he]
    exact ih fun x hx => h x (List.mem_cons_of_mem _ hx)

/-- After a message about the item, the earlier ones make no difference. -/
theorem lastStatus_some (h : ∃ event ∈ after, statusFor id event ≠ none) (status' : OrderItemStatus) :
    lastStatus id status after = lastStatus id status' after := by
  induction after generalizing status status' with
  | nil =>
    obtain ⟨_, he, -⟩ := h
    cases he
  | cons event after ih =>
    rw [lastStatus, lastStatus, List.foldl_cons, List.foldl_cons]
    cases hs : statusFor id event with
    | some s => rfl
    | none =>
      refine ih ?_ _
      obtain ⟨x, hx, hne⟩ := h
      rcases List.mem_cons.mp hx with rfl | hx
      · exact absurd hs hne
      · exact ⟨x, hx, hne⟩

end Last

section Submit

variable {before after : List (Timestamp × RealtimeEvent)}

/-- The page after the messages `before`, the answer to its order, and the messages `after`. -/
def submitted (orderId : Uuid) (items : List OrderItem) (before after : List (Timestamp × RealtimeEvent))
    (page : Page) : Page :=
  receive after (handleSubmitOrder orderId items (receive before page))

/-- The new items are shown with their last status exactly if the answer has not set any
back that no later message brings forward again. -/
theorem own_order (hids : (items.map OrderItem.id).Nodup) :
    (∀ i ∈ items, Shows (submitted orderId items before after page) orderId i
      (lastStatus i.id i.status ((before ++ after).map Prod.snd))) ↔
    ∀ i ∈ items, (∃ e ∈ after, statusFor i.id e.2 ≠ none) ∨
      lastStatus i.id i.status (before.map Prod.snd) = i.status := by
  refine forall₂_congr fun i hi => ?_
  have hshows : Shows (submitted orderId items before after page) orderId i
      (lastStatus i.id i.status (after.map Prod.snd)) :=
    (handleSubmitOrder_shows hids hi).receive after
  rw [List.map_append, lastStatus_append]
  by_cases hlast : ∃ e ∈ after, statusFor i.id e.2 ≠ none
  · obtain ⟨e, he, hne⟩ := hlast
    rw [lastStatus_some ⟨e.2, List.mem_map_of_mem he, hne⟩ i.status]
    exact iff_of_true hshows (.inl ⟨e, he, hne⟩)
  · have hnone : ∀ event ∈ after.map Prod.snd, statusFor i.id event = none := by
      intro event hevent
      obtain ⟨e, he, rfl⟩ := List.mem_map.mp hevent
      by_contra hne
      exact hlast ⟨e, he, hne⟩
    rw [lastStatus_none hnone] at hshows ⊢
    refine ⟨fun h => .inr (h.status_eq hshows), fun h => ?_⟩
    rw [h.resolve_left hlast]
    exact hshows

def cafeDish : OrderItem :=
  ⟨12, 1, 11, 3, "Phở bò", 5000000, 10, 1, none, .pending, 0, none, none, none, none, none⟩

def cafeCreated : RealtimeEvent := .orderCreated 11 10 [Customer.publishedItem cafeDish]

/-- The cook starts the dish after the answer. -/
theorem own_order_cafe : Shows (submitted 11 [cafeDish] [(0, cafeCreated)] [(1, .itemUpdated 12 .cooking 11)] [])
    11 cafeDish .cooking :=
  (own_order (by decide)).mpr (fun i hi => .inl ⟨_, List.mem_singleton_self _, by
    rw [List.mem_singleton.mp hi]
    decide⟩) cafeDish (List.mem_singleton_self _)

/-- The answer that comes after the cook has started the dish sets it back to pending. -/
theorem own_order_fails : ¬ ∀ (page : Page) (orderId sessionId : Uuid) (items : List OrderItem)
    (before after : List (Timestamp × RealtimeEvent)) (updates : List RealtimeEvent),
    (items.map OrderItem.id).Nodup → (∀ i ∈ items, i.id ∉ page.map SessionItem.id) →
      (before ++ after).map Prod.snd =
        .orderCreated orderId sessionId (items.map Customer.publishedItem) :: updates →
      ∀ i ∈ items, Shows (submitted orderId items before after page) orderId i
        (lastStatus i.id i.status ((before ++ after).map Prod.snd)) := by
  intro h
  have hshown := h [] 11 10 [cafeDish] [(0, cafeCreated), (1, .itemUpdated 12 .cooking 11)] []
    [.itemUpdated 12 .cooking 11] (by decide) (by simp) rfl cafeDish (List.mem_singleton_self _)
  have hanswer : Shows (handleSubmitOrder 11 [cafeDish] (receive
      [(0, cafeCreated), (1, .itemUpdated 12 .cooking 11)] [])) 11 cafeDish .pending :=
    handleSubmitOrder_shows (by decide) (List.mem_singleton_self _)
  cases hshown.status_eq hanswer

end Submit

end MenuPage

end QOrder
