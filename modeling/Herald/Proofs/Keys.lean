import Herald.Cooldown
import Herald.History
import Herald.Proofs.Text.Decimal

/-!
# Keys of the cache

Cooldowns and histories share one cache. A key says whose it is and what it is for: a number and the
name of a class hold no colon, so that a key can be read from the left whatever its context holds.

* `Cooldown.key_inj`: different users, classes or contexts have different cooldowns.
* `History.key_inj`, `History.key_ne_keyOf`: histories of different users are apart from each other
  and from all cooldowns.
-/

namespace Herald

/-- What stands in front of the first colon is known, and so is what stands behind it. -/
theorem append_colon_inj {xs ys s t : List Char} (hx : ':' ∉ xs) (hy : ':' ∉ ys)
    (h : xs ++ ':' :: s = ys ++ ':' :: t) : xs = ys ∧ s = t := by
  induction xs generalizing ys with
  | nil =>
    cases ys with
    | nil => exact ⟨rfl, (List.cons.inj h).2⟩
    | cons y ys => exact absurd ((List.cons.inj h).1 ▸ List.mem_cons_self ..) hy
  | cons x xs ih =>
    cases ys with
    | nil => exact absurd ((List.cons.inj h).1 ▸ List.mem_cons_self ..) hx
    | cons y ys =>
      obtain ⟨hxy, h⟩ := List.cons.inj h
      obtain ⟨hs, ht⟩ := ih (fun hm => hx (List.mem_cons_of_mem _ hm))
        (fun hm => hy (List.mem_cons_of_mem _ hm)) h
      exact ⟨by rw [hxy, hs], ht⟩

namespace Cooldown

theorem toList_keyOf (user : UserId) (className context : String) :
    (keyOf user className context).toList = "notification_limiter:".toList ++
      (Decimal.intChars user.toInt ++ ':' :: (className.toList ++ ':' :: context.toList)) := by
  have h : keyOf user className context =
      "notification_limiter:" ++ Decimal.ofId user ++ ":" ++ className ++ ":" ++ context := rfl
  rw [h]
  simp only [String.toList_append, Decimal.ofId, Decimal.ofInt, String.toList_ofList,
    List.append_assoc]
  rfl

theorem colon_not_mem_name (c : Class) : ':' ∉ c.name.toList := by cases c <;> decide

theorem name_inj {c d : Class} (h : c.name = d.name) : c = d := by
  cases c <;> cases d <;> first | rfl | exact absurd h (by decide)

theorem keyOf_inj {u v : UserId} {c d x y : String} (hc : ':' ∉ c.toList) (hd : ':' ∉ d.toList)
    (h : keyOf u c x = keyOf v d y) : u = v ∧ c = d ∧ x = y := by
  have hl := congrArg String.toList h
  rw [toList_keyOf, toList_keyOf] at hl
  obtain ⟨hu, hl⟩ := append_colon_inj (Decimal.colon_not_mem_intChars _)
    (Decimal.colon_not_mem_intChars _) (List.append_cancel_left hl)
  obtain ⟨hc, hx⟩ := append_colon_inj hc hd hl
  exact ⟨Int64.toInt_inj.1 (Decimal.intChars_injective hu), String.toList_inj.1 hc,
    String.toList_inj.1 hx⟩

/-- Different users, classes or contexts have different cooldowns. -/
theorem key_inj {u v : UserId} {c d : Class} {x y : String} (h : key u c x = key v d y) :
    u = v ∧ c = d ∧ x = y := by
  obtain ⟨hu, hc, hx⟩ := keyOf_inj (colon_not_mem_name c) (colon_not_mem_name d) h
  exact ⟨hu, name_inj hc, hx⟩

end Cooldown

namespace History

theorem toList_key (user : UserId) :
    (key user).toList = "notifications:".toList ++ Decimal.intChars user.toInt := by
  have h : key user = "notifications:" ++ Decimal.ofId user := rfl
  rw [h]
  simp only [String.toList_append, Decimal.ofId, Decimal.ofInt, String.toList_ofList]

theorem key_inj {u v : UserId} (h : key u = key v) : u = v := by
  have hl := congrArg String.toList h
  rw [toList_key, toList_key] at hl
  exact Int64.toInt_inj.1 (Decimal.intChars_injective (List.append_cancel_left hl))

/-- The two kinds of keys differ in their thirteenth character. -/
theorem key_ne_keyOf (u v : UserId) (className context : String) :
    key u ≠ Cooldown.keyOf v className context := by
  intro h
  have hl := congrArg (fun s : String => s.toList[12]?) h
  simp only [toList_key, Cooldown.toList_keyOf] at hl
  rw [List.getElem?_append_left (by decide), List.getElem?_append_left (by decide)] at hl
  exact absurd hl (by decide)

end History

end Herald
