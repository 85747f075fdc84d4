import Os161.Vm.Proofs.Layout

namespace Os161

open Exec Linked

/-! ### Reading and writing the state -/

@[simp] theorem pageref_apply (pr : Nat) (s : Kheap) : pageref pr s = .ok (s.pagerefs pr) s := rfl

@[simp] theorem modifyPageref_apply (pr : Nat) (f : Pageref → Pageref) (s : Kheap) :
    modifyPageref pr f s =
      .ok () { s with pagerefs := Function.update s.pagerefs pr (f (s.pagerefs pr)) } := rfl

@[simp] theorem storeWord_apply (a v : Nat) (s : Kheap) :
    storeWord a v s = .ok () { s with mem := Function.update s.mem a v } := rfl

/-! ### The loops over the lists -/

/-- **The search of `subpage_kmalloc`** returns the first page of the list with a free block. -/
theorem kmallocSearch_spec {s : Kheap} {k : Nat} {p : Option Nat} {l : List Nat}
    (hc : Chain s.samesizeNext p l) (hk : ∀ r ∈ l, s.btype r = k) {fuel : Nat}
    (hf : l.length ≤ fuel) :
    kmallocSearch k fuel p s = .ok (l.find? fun r => 0 < (s.pagerefs r).nfree) s := by
  induction hc generalizing fuel with
  | nil => cases fuel <;> rfl
  | @cons a l hl ih =>
    obtain ⟨f, rfl⟩ : ∃ f, fuel = f + 1 := ⟨fuel - 1, by simp at hf; omega⟩
    have ha : PR_BLOCKTYPE (s.pagerefs a) = k := hk a (List.mem_cons_self ..)
    simp only [kmallocSearch, pageref_apply, bind_apply, assert_apply, ha, if_true]
    by_cases hn : 0 < (s.pagerefs a).nfree
    · simp [hn]
    · simp only [hn, if_false, List.find?_cons, decide_false]
      exact ih (fun r hr => hk r (List.mem_cons_of_mem _ hr)) (by simp at hf; omega)

/-- **The search of `subpage_kfree`** returns the first page on the list that holds the
address. -/
theorem kfreeSearch_spec {s : Kheap} {ptr : Nat} {p : Option Nat} {l : List Nat}
    (hc : Chain s.allNext p l) (hk : ∀ r ∈ l, PageOk s r) {fuel : Nat} (hf : l.length ≤ fuel) :
    kfreeSearch ptr fuel p s = .ok (l.find? fun r => decide (s.InPage r ptr)) s := by
  induction hc generalizing fuel with
  | nil => cases fuel <;> rfl
  | @cons a l hl ih =>
    obtain ⟨f, rfl⟩ : ∃ f, fuel = f + 1 := ⟨fuel - 1, by simp at hf; omega⟩
    have ha := hk a (List.mem_cons_self ..)
    -- the end of the page does not wrap
    have hend : Word.add 32 (s.page a) PAGE_SIZE = s.page a + PAGE_SIZE :=
      Word.add_of_lt ha.page_lt
    have hin : (ptr ≥ PR_PAGEADDR (s.pagerefs a) ∧
        ptr < Word.add 32 (PR_PAGEADDR (s.pagerefs a)) PAGE_SIZE) ↔ s.InPage a ptr := by
      rw [show PR_PAGEADDR (s.pagerefs a) = s.page a from rfl, hend]
      exact Iff.rfl
    have hbt : PR_BLOCKTYPE (s.pagerefs a) < NSIZES := ha.btype_lt
    simp only [kfreeSearch, pageref_apply, bind_apply, assert_apply, hbt, if_true]
    by_cases hp : s.InPage a ptr
    · rw [if_pos (hin.mpr hp)]
      simp [hp]
    · rw [if_neg (mt hin.mp hp)]
      simp only [List.find?_cons, hp, decide_false]
      exact ih (fun r hr => hk r (List.mem_cons_of_mem _ hr)) (by simp at hf; omega)

namespace PrList

/-- The head of the list. -/
def head (l : PrList) (s : Kheap) : Option Nat := l.read s none

/-- The link of each node of the list. -/
def nextF (l : PrList) (s : Kheap) (g : Nat) : Option Nat := l.read s (some g)

theorem head_all (s : Kheap) : PrList.all.head s = s.allbase := rfl

theorem nextF_all (s : Kheap) : PrList.all.nextF s = s.allNext := rfl

theorem head_samesize (k : Nat) (s : Kheap) : (PrList.samesize k).head s = s.sizebases k := rfl

theorem nextF_samesize (k : Nat) (s : Kheap) : (PrList.samesize k).nextF s = s.samesizeNext :=
  rfl

/-- `*guy = v` is the store into the slot of the list. -/
theorem write_eq (l : PrList) (s : Kheap) (guy v : Option Nat) :
    (l.head (l.write s guy v), l.nextF (l.write s guy v)) =
      writeSlot (l.head s) (l.nextF s) guy v := by
  rcases l with k | _ <;> rcases guy with _ | g
  all_goals
    refine Prod.ext ?_ (funext fun g' => ?_)
    all_goals
      simp only [head, nextF, read, write, writeSlot, Function.update_apply]
      try split_ifs <;> simp_all

end PrList

/-- **The loop of `remove_lists`**, from a slot whose list holds `pr`: it stores `pr`'s link
into the slot that points at `pr`. -/
theorem removeFrom_spec (l : PrList) {s : Kheap} {pr : Nat} :
    ∀ {rest : List Nat} {guy : Option Nat} {fuel : Nat}, Chain (l.nextF s) (l.read s guy) rest →
      pr ∈ rest → rest.length ≤ fuel →
      removeFrom l pr fuel guy s = .ok () (l.write s (slotOf pr guy rest) (l.nextF s pr))
  | [], _, _, _, hpr, _ => absurd hpr (List.not_mem_nil)
  | g :: rest, guy, fuel, hc, hpr, hf => by
    obtain ⟨hg, hc⟩ := chain_cons_iff.1 hc
    obtain ⟨f, rfl⟩ : ∃ f, fuel = f + 1 := ⟨fuel - 1, by simp at hf; omega⟩
    simp only [removeFrom, bind_apply, get_apply, hg]
    by_cases hgp : g = pr
    · subst hgp
      simp [slotOf, PrList.nextF]
    · rw [if_neg hgp, slotOf, if_neg hgp]
      have hpr' : pr ∈ rest := (List.mem_cons.mp hpr).resolve_left (Ne.symm hgp)
      exact removeFrom_spec l hc hpr' (by simp at hf; omega)

end Os161
