import Mathlib.Algebra.Order.Group.Multiset
import Std.Data.ExtTreeMap.Lemmas

/-! What a map holds, as a multiset: the values without their keys and their order, each seen
through a function. An insertion and an erasure change it by the value they bring and the value
they take away. -/

namespace SubaccountIndexer.Lib
open Std

variable {K V A : Type} {cmp : K → K → Ordering} [TransCmp cmp]

/-- The values of a map, each seen through `f` -/
def contents (f : V → A) (m : ExtTreeMap K V cmp) : Multiset A := m.toList.map fun entry => f entry.2

variable {f : V → A} {m : ExtTreeMap K V cmp} {k : K} {v old : V}

@[simp] theorem card_contents : (contents f m).card = m.size := by
  simp [contents]

@[simp] theorem contents_empty : contents f (∅ : ExtTreeMap K V cmp) = 0 := by
  simp [contents]

variable [LawfulEqCmp cmp]

theorem nodup_toList (m : ExtTreeMap K V cmp) : m.toList.Nodup :=
  (ExtTreeMap.distinct_keys_toList (t := m)).imp fun hkeys heq => hkeys (by rw [heq]; simp)

/-- A map is one of its entries and the rest. -/
theorem toList_perm_cons (held : m[k]? = some v) :
    m.toList.Perm ((k, v) :: (m.erase k).toList) := by
  refine (List.perm_ext_iff_of_nodup (nodup_toList m) (List.nodup_cons.mpr ⟨?_, nodup_toList _⟩)).mpr ?_
  · simp
  · rintro ⟨k', v'⟩
    rw [List.mem_cons, ExtTreeMap.mem_toList_iff_getElem?_eq_some,
      ExtTreeMap.mem_toList_iff_getElem?_eq_some, ExtTreeMap.getElem?_erase, Prod.mk.injEq]
    by_cases hk : k = k'
    · subst hk
      simp [held, eq_comm]
    · simp [hk, Ne.symm hk]

theorem contents_erase (f : V → A) (held : m[k]? = some v) :
    contents f (m.erase k) + {f v} = contents f m := by
  have hperm := (toList_perm_cons held).map fun entry => f entry.2
  rw [contents, contents, Multiset.coe_eq_coe.mpr hperm, List.map_cons, ← Multiset.cons_coe,
    ← Multiset.singleton_add, add_comm]

theorem erase_insert (m : ExtTreeMap K V cmp) (k : K) (v : V) : (m.insert k v).erase k = m.erase k := by
  refine ExtTreeMap.ext_getElem? fun k' => ?_
  rw [ExtTreeMap.getElem?_erase, ExtTreeMap.getElem?_erase, ExtTreeMap.getElem?_insert]
  split <;> rfl

theorem erase_free (free : m[k]? = none) : m.erase k = m := by
  refine ExtTreeMap.ext_getElem? fun k' => ?_
  rw [ExtTreeMap.getElem?_erase]
  split
  · rename_i heq
    rw [← LawfulEqCmp.eq_of_compare heq, free]
  · rfl

theorem contents_insert (f : V → A) (m : ExtTreeMap K V cmp) (k : K) (v : V) :
    contents f (m.insert k v) = contents f (m.erase k) + {f v} := by
  rw [← erase_insert m k v, contents_erase f (by simp)]

theorem contents_insert_free (f : V → A) (free : m[k]? = none) (v : V) :
    contents f (m.insert k v) = contents f m + {f v} := by
  rw [contents_insert, erase_free free]

theorem contents_insert_held (f : V → A) (held : m[k]? = some old) (v : V) :
    contents f (m.insert k v) + {f old} = contents f m + {f v} := by
  rw [contents_insert, add_right_comm, contents_erase f held]

end SubaccountIndexer.Lib
