import Mathlib.Data.List.Nodup
import Mathlib.Data.List.Perm.Basic

/-!
# Delivery of messages

A receiver stores the content of a message under the key of the message, once: a message whose key
is taken, or which has no content, changes nothing. Messages may be delivered in any order and any
number of times.

* `Receives`, `Delivers`: one delivery, and deliveries one after another.
* `Delivers.perm`: what is stored depends only on the messages that were delivered, up to order.
-/

namespace InventoryBot.Lib

variable {μ κ β : Type*} {key : μ → κ} {content : μ → Option β} {taken : κ → Prop}

/-- One delivery. -/
inductive Receives (key : μ → κ) (content : μ → Option β) (taken : κ → Prop) (m : μ)
    (stored : List (κ × β)) : List (κ × β) → Prop
  | known (h : taken (key m) ∨ key m ∈ stored.map Prod.fst) :
      Receives key content taken m stored stored
  | empty (h : content m = none) : Receives key content taken m stored stored
  | added {x : β} (hnew : ¬taken (key m)) (hkey : key m ∉ stored.map Prod.fst)
      (hcontent : content m = some x) :
      Receives key content taken m stored (stored ++ [(key m, x)])

/-- Deliveries one after another. -/
inductive Delivers (key : μ → κ) (content : μ → Option β) (taken : κ → Prop) :
    List μ → List (κ × β) → Prop
  | nil : Delivers key content taken [] []
  | snoc {messages : List μ} {stored stored' : List (κ × β)} {m : μ}
      (h : Delivers key content taken messages stored)
      (hm : Receives key content taken m stored stored') :
      Delivers key content taken (messages ++ [m]) stored'

/-- Each key is stored once. -/
theorem Delivers.nodup {messages : List μ} {stored : List (κ × β)}
    (h : Delivers key content taken messages stored) : (stored.map Prod.fst).Nodup := by
  induction h with
  | nil => exact List.nodup_nil
  | snoc h hm ih =>
    cases hm with
    | known | empty => exact ih
    | added hnew hkey hcontent =>
      rw [List.map_append, List.map_singleton]
      refine List.nodup_append.2 ⟨ih, List.nodup_singleton _, ?_⟩
      rintro k hk _ hk' rfl
      obtain rfl := List.mem_singleton.1 hk'
      exact hkey hk

/-- What is stored is the content of a delivered message. -/
theorem Delivers.sound {messages : List μ} {stored : List (κ × β)}
    (h : Delivers key content taken messages stored) :
    ∀ y ∈ stored, ∃ m ∈ messages, content m = some y.2 ∧ key m = y.1 ∧ ¬taken y.1 := by
  induction h with
  | nil => simp
  | @snoc messages stored stored' m h hm ih =>
    intro y hy
    have hbefore (hy : y ∈ stored) : ∃ m' ∈ messages ++ [m],
        content m' = some y.2 ∧ key m' = y.1 ∧ ¬taken y.1 :=
      (ih y hy).imp fun m' hm' => ⟨List.mem_append_left _ hm'.1, hm'.2⟩
    cases hm with
    | known | empty => exact hbefore hy
    | added hnew hkey hcontent =>
      rcases List.mem_append.1 hy with hy | hy
      · exact hbefore hy
      · obtain rfl := List.mem_singleton.1 hy
        exact ⟨_, List.mem_append_right _ List.mem_cons_self, hcontent, rfl, hnew⟩

/-- The key of every delivered message with content is taken or stored. -/
theorem Delivers.complete {messages : List μ} {stored : List (κ × β)}
    (h : Delivers key content taken messages stored) :
    ∀ m ∈ messages, content m ≠ none → taken (key m) ∨ key m ∈ stored.map Prod.fst := by
  induction h with
  | nil => simp
  | @snoc messages stored stored' m h hm ih =>
    have hkept : ∀ {k}, k ∈ stored.map Prod.fst → k ∈ stored'.map Prod.fst := by
      intro k hk
      cases hm with
      | known | empty => exact hk
      | added => simp [List.map_append, hk]
    intro m' hm' hcontent'
    rcases List.mem_append.1 hm' with hm' | hm'
    · exact (ih m' hm' hcontent').imp_right hkept
    · obtain rfl := List.mem_singleton.1 hm'
      cases hm with
      | known h => exact h
      | empty h => exact absurd h hcontent'
      | added => exact Or.inr (by simp)

/-- Where a key determines the content, two receivers that got the same messages, in any order and
    any number of times, have stored the same. -/
theorem Delivers.perm {messages messages' : List μ} {stored stored' : List (κ × β)}
    (h : Delivers key content taken messages stored)
    (h' : Delivers key content taken messages' stored')
    (hsame : ∀ m, m ∈ messages ↔ m ∈ messages')
    (hdetermined : ∀ m ∈ messages, ∀ m' ∈ messages, key m = key m' → content m = content m') :
    stored.Perm stored' := by
  have hsubset : ∀ {l l' : List μ} {s s' : List (κ × β)}, Delivers key content taken l s →
      Delivers key content taken l' s' → (∀ m, m ∈ l → m ∈ l') →
      (∀ m ∈ l', ∀ m' ∈ l', key m = key m' → content m = content m') → ∀ y ∈ s, y ∈ s' := by
    intro l l' s s' hs hs' hmem hdet y hy
    obtain ⟨m, hm, hcontent, hkey, hnew⟩ := hs.sound y hy
    have hstored : y.1 ∈ s'.map Prod.fst := by
      rcases hs'.complete m (hmem m hm) (by simp [hcontent]) with htaken | hstored
      · exact absurd (hkey ▸ htaken) hnew
      · exact hkey ▸ hstored
    obtain ⟨z, hz, hzkey⟩ := List.mem_map.1 hstored
    obtain ⟨m', hm', hcontent', hkey', -⟩ := hs'.sound z hz
    have hcontents := hdet m (hmem m hm) m' hm' (hkey.trans (hzkey.symm.trans hkey'.symm))
    have hvalue : y.2 = z.2 :=
      Option.some.inj (hcontent.symm.trans (hcontents.trans hcontent'))
    rwa [show y = z from Prod.ext hzkey.symm hvalue]
  refine (List.perm_ext_iff_of_nodup (.of_map _ h.nodup) (.of_map _ h'.nodup)).2 fun y => ⟨?_, ?_⟩
  · refine hsubset h h' (fun m => (hsame m).1) (fun m hm m' hm' => ?_) y
    exact hdetermined m ((hsame m).2 hm) m' ((hsame m').2 hm')
  · exact hsubset h' h (fun m => (hsame m).2) hdetermined y

end InventoryBot.Lib
