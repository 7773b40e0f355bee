import Mathlib.Data.List.Basic
import Mathlib.Logic.Function.Basic
import Mathlib.Tactic.Lemma

/-!
Clients that add items to one store and remove them again.

Every client sends its operations in order, and the store carries them out, or refuses them, one
at a time. An item is added under a key of its own, and removed by clients that have seen it: it
is in the store, or on its way there from the same client. So an addition is never overtaken by
the removal of its item, and the store holds what has been stored and not removed.
-/

namespace Outbox

inductive Op (κ ν : Type*) where
  | add (key : κ) (item : ν)
  | remove (key : κ)
  deriving DecidableEq

variable {ι κ ν : Type*}

def Op.key : Op κ ν → κ
  | .add key _ | .remove key => key

structure Net (ι κ ν : Type*) where
  /-- The operations of each client on their way, the oldest first. -/
  outbox : ι → List (Op κ ν)
  store : κ → Option ν
  /-- History: all additions sent, those carried out, and the removals carried out. -/
  added : List (κ × ν)
  stored : List (κ × ν)
  removed : List κ

namespace Net

/-- Nothing is on its way. -/
def init (store : κ → Option ν) (stored : List (κ × ν)) : Net ι κ ν :=
  ⟨fun _ => [], store, stored, stored, []⟩

/-- An addition of the key is on its way from the client. -/
def Waits (n : Net ι κ ν) (i : ι) (key : κ) : Prop := ∃ item, .add key item ∈ n.outbox i

/-- The client has seen the item. -/
def Seen (n : Net ι κ ν) (i : ι) (key : κ) (item : ν) : Prop :=
  (key, item) ∈ n.stored ∨ .add key item ∈ n.outbox i

instance [DecidableEq κ] [DecidableEq ν] (n : Net ι κ ν) (i : ι) (key : κ) (item : ν) :
    Decidable (n.Seen i key item) :=
  inferInstanceAs (Decidable (_ ∨ _))

/-- The item has been added, and its addition is not on its way from another client. -/
def Known (n : Net ι κ ν) (i : ι) (key : κ) (item : ν) : Prop :=
  (key, item) ∈ n.added ∧ ∀ j, n.Waits j key → j = i

/-- The second operation is no addition under the key of the first. -/
def Behind (a b : Op κ ν) : Prop := ∀ item, b ≠ .add a.key item

structure Consistent (n : Net ι κ ν) : Prop where
  keys : ∀ key item item', (key, item) ∈ n.added → (key, item') ∈ n.added → item = item'
  stored : ∀ x ∈ n.stored, x ∈ n.added
  sent : ∀ i key item, .add key item ∈ n.outbox i → (key, item) ∈ n.added
  /-- What is removed has been added before. -/
  issued : ∀ i key, .remove key ∈ n.outbox i → ∃ item, (key, item) ∈ n.added
  alone : ∀ i j key, n.Waits i key → n.Waits j key → i = j
  ordered : ∀ i, (n.outbox i).Pairwise Behind
  /-- A removal is sent by the client of the addition, or after it has been carried out. -/
  after : ∀ i j key, .remove key ∈ n.outbox i → n.Waits j key → j = i
  arrived : ∀ x ∈ n.stored, ∀ i, ¬n.Waits i x.1
  gone : ∀ key ∈ n.removed, (∃ item, (key, item) ∈ n.added) ∧ ∀ i, ¬n.Waits i key
  store_iff : ∀ key item, n.store key = some item ↔ (key, item) ∈ n.stored ∧ key ∉ n.removed

lemma consistent_init {store : κ → Option ν} {stored : List (κ × ν)}
    (h : ∀ key item, store key = some item ↔ (key, item) ∈ stored) :
    Consistent (init (ι := ι) store stored) where
  keys key item item' hi hi' := by
    rw [← Option.some_inj, ← (h key item).mpr hi, (h key item').mpr hi']
  stored _ hx := hx
  sent := by simp [init]
  issued := by simp [init]
  alone := by simp [init, Waits]
  ordered := by simp [init]
  after := by simp [init]
  arrived := by simp [init, Waits]
  gone := by simp [init]
  store_iff := by simpa [init] using h

variable {n : Net ι κ ν} {i j : ι} {key k : κ} {item : ν}

/-- Each operation of an outbox is about an item that has been added. -/
lemma Consistent.added (h : Consistent n) {op : Op κ ν} (hop : op ∈ n.outbox i) :
    ∃ item, (op.key, item) ∈ n.added := by
  cases op with
  | add key item => exact ⟨item, h.sent i key item hop⟩
  | remove key => exact h.issued i key hop

/-- What a client has seen, it knows. -/
lemma Consistent.known (h : Consistent n) (hseen : n.Seen i key item) : n.Known i key item := by
  rcases hseen with hseen | hseen
  · exact ⟨h.stored _ hseen, fun j hwaits => absurd hwaits (h.arrived _ hseen j)⟩
  · exact ⟨h.sent i key item hseen, fun j hwaits => h.alone j i key hwaits ⟨item, hseen⟩⟩

lemma Known.mono {n' : Net ι κ ν} (h : n.Known i key item) (hadded : ∀ x ∈ n.added, x ∈ n'.added)
    (hwaits : ∀ j, n'.Waits j key → n.Waits j key) : n'.Known i key item :=
  ⟨hadded _ h.1, fun j hj => h.2 j (hwaits j hj)⟩

variable [DecidableEq ι]

def add (n : Net ι κ ν) (i : ι) (key : κ) (item : ν) : Net ι κ ν :=
  { n with
    outbox := Function.update n.outbox i (n.outbox i ++ [.add key item])
    added := (key, item) :: n.added }

def remove (n : Net ι κ ν) (i : ι) (key : κ) : Net ι κ ν :=
  { n with outbox := Function.update n.outbox i (n.outbox i ++ [.remove key]) }

/-- The oldest operation of the client leaves its outbox. -/
def drop (n : Net ι κ ν) (i : ι) : Net ι κ ν :=
  { n with outbox := Function.update n.outbox i (n.outbox i).tail }

lemma mem_outbox_drop {op : Op κ ν} (h : op ∈ (n.drop i).outbox j) : op ∈ n.outbox j := by
  by_cases hj : j = i
  · subst hj
    exact List.mem_of_mem_tail (by simpa [drop] using h)
  · simpa [drop, hj] using h

lemma waits_drop (h : (n.drop i).Waits j k) : n.Waits j k := by
  obtain ⟨item, hitem⟩ := h
  exact ⟨item, mem_outbox_drop hitem⟩

lemma outbox_add_self : (n.add i key item).outbox i = n.outbox i ++ [.add key item] := by
  simp [add]

lemma outbox_remove_self : (n.remove i key).outbox i = n.outbox i ++ [.remove key] := by
  simp [remove]

lemma mem_outbox_add {op : Op κ ν} : op ∈ (n.add i key item).outbox j ↔
    op ∈ n.outbox j ∨ j = i ∧ op = .add key item := by
  by_cases hj : j = i
  · subst hj
    simp [add]
  · simp [add, hj]

lemma mem_outbox_remove {op : Op κ ν} : op ∈ (n.remove i key).outbox j ↔
    op ∈ n.outbox j ∨ j = i ∧ op = .remove key := by
  by_cases hj : j = i
  · subst hj
    simp [remove]
  · simp [remove, hj]

lemma waits_add : (n.add i key item).Waits j k ↔ n.Waits j k ∨ j = i ∧ k = key := by
  simp only [Waits, mem_outbox_add, Op.add.injEq]
  constructor
  · rintro ⟨item', h | ⟨rfl, rfl, -⟩⟩
    · exact .inl ⟨item', h⟩
    · exact .inr ⟨rfl, rfl⟩
  · rintro (⟨item', h⟩ | ⟨rfl, rfl⟩)
    · exact ⟨item', .inl h⟩
    · exact ⟨item, .inr ⟨rfl, rfl, rfl⟩⟩

@[simp] lemma waits_remove : (n.remove i key).Waits j k ↔ n.Waits j k := by
  simp [Waits, mem_outbox_remove]

lemma Known.add (h : n.Known j k item) (hfresh : ∀ x, (key, x) ∉ n.added) (x : ν) :
    (n.add i key x).Known j k item := by
  refine h.mono (fun y hy => List.mem_cons_of_mem _ hy) fun a hwaits => ?_
  rcases waits_add.mp hwaits with hwaits | ⟨-, rfl⟩
  · exact hwaits
  · exact absurd h.1 (hfresh item)

lemma Known.remove (h : n.Known j k item) : (n.remove i key).Known j k item :=
  h.mono (fun _ hy => hy) fun _ => waits_remove.mp

lemma Known.drop (h : n.Known j k item) : (n.drop i).Known j k item :=
  h.mono (fun _ hy => hy) fun _ => waits_drop

/-- An item is added under a key that has not been used. -/
theorem Consistent.add (h : Consistent n) (hfresh : ∀ item, (key, item) ∉ n.added) :
    Consistent (n.add i key item) where
  keys := by
    simp only [Net.add, List.mem_cons, Prod.mk.injEq]
    rintro k x y (⟨rfl, rfl⟩ | hx) (⟨hk, rfl⟩ | hy)
    · rfl
    · exact absurd hy (hfresh y)
    · exact absurd (hk ▸ hx) (hfresh x)
    · exact h.keys k x y hx hy
  stored x hx := List.mem_cons_of_mem _ (h.stored x hx)
  sent j k x hx := by
    rcases mem_outbox_add.mp hx with hx | ⟨-, hx⟩
    · exact List.mem_cons_of_mem _ (h.sent j k x hx)
    · cases hx
      exact List.mem_cons_self
  issued j k hk := by
    obtain ⟨x, hx⟩ := h.issued j k (by simpa [mem_outbox_add] using hk)
    exact ⟨x, List.mem_cons_of_mem _ hx⟩
  alone := by
    have hnone : ∀ j, ¬n.Waits j key := fun j ⟨x, hx⟩ => hfresh x (h.sent j key x hx)
    simp only [waits_add]
    rintro a b k (ha | ⟨rfl, rfl⟩) (hb | ⟨rfl, hk⟩)
    · exact h.alone a b k ha hb
    · exact absurd (hk ▸ ha) (hnone a)
    · exact absurd hb (hnone b)
    · rfl
  ordered j := by
    by_cases hj : j = i
    · subst hj
      rw [outbox_add_self, List.pairwise_append]
      refine ⟨h.ordered j, List.pairwise_singleton _ _, fun a ha b hb => ?_⟩
      obtain rfl := List.mem_singleton.mp hb
      obtain ⟨x, hx⟩ := h.added ha
      intro y hy
      exact hfresh x ((Op.add.inj hy).1 ▸ hx)
    · simpa [Net.add, hj] using h.ordered j
  after a b k hk hwaits := by
    have hmem : .remove k ∈ n.outbox a := by simpa [mem_outbox_add] using hk
    rcases waits_add.mp hwaits with hwaits | ⟨-, rfl⟩
    · exact h.after a b k hmem hwaits
    · obtain ⟨x, hx⟩ := h.issued a k hmem
      exact absurd hx (hfresh x)
  arrived x hx j hwaits := by
    rcases waits_add.mp hwaits with hwaits | ⟨-, hk⟩
    · exact h.arrived x hx j hwaits
    · exact hfresh x.2 (hk ▸ h.stored x hx)
  gone k hk := by
    obtain ⟨⟨x, hx⟩, hnone⟩ := h.gone k hk
    refine ⟨⟨x, List.mem_cons_of_mem _ hx⟩, fun j hwaits => ?_⟩
    rcases waits_add.mp hwaits with hwaits | ⟨-, rfl⟩
    · exact hnone j hwaits
    · exact hfresh x hx
  store_iff := h.store_iff

/-- A client removes an item it knows. -/
theorem Consistent.remove (h : Consistent n) (hknown : n.Known i key item) :
    Consistent (n.remove i key) where
  keys := h.keys
  stored := h.stored
  sent j k x hx := h.sent j k x (by simpa [mem_outbox_remove] using hx)
  issued j k hk := by
    rcases mem_outbox_remove.mp hk with hk | ⟨-, hk⟩
    · exact h.issued j k hk
    · cases hk
      exact ⟨item, hknown.1⟩
  alone := by simpa using h.alone
  ordered j := by
    by_cases hj : j = i
    · subst hj
      rw [outbox_remove_self, List.pairwise_append]
      refine ⟨h.ordered j, List.pairwise_singleton _ _, fun a _ b hb x hx => ?_⟩
      obtain rfl := List.mem_singleton.mp hb
      cases hx
    · simpa [Net.remove, hj] using h.ordered j
  after a b k hk hwaits := by
    rw [waits_remove] at hwaits
    rcases mem_outbox_remove.mp hk with hold | ⟨rfl, hnew⟩
    · exact h.after a b k hold hwaits
    · obtain rfl := Op.remove.inj hnew
      exact hknown.2 b hwaits
  arrived x hx j hwaits := h.arrived x hx j (waits_remove.mp hwaits)
  gone k hk := ⟨(h.gone k hk).1, fun j hwaits => (h.gone k hk).2 j (waits_remove.mp hwaits)⟩
  store_iff := h.store_iff

/-- The oldest operation of a client is refused. -/
theorem Consistent.drop (h : Consistent n) (i : ι) : Consistent (n.drop i) where
  keys := h.keys
  stored := h.stored
  sent j k x hx := h.sent j k x (mem_outbox_drop hx)
  issued j k hk := h.issued j k (mem_outbox_drop hk)
  alone a b k ha hb := h.alone a b k (waits_drop ha) (waits_drop hb)
  ordered j := by
    by_cases hj : j = i
    · subst hj
      simpa [Net.drop] using (h.ordered j).sublist (List.tail_sublist _)
    · simpa [Net.drop, hj] using h.ordered j
  after a b k hk hwaits := h.after a b k (mem_outbox_drop hk) (waits_drop hwaits)
  arrived x hx j hwaits := h.arrived x hx j (waits_drop hwaits)
  gone k hk := ⟨(h.gone k hk).1, fun j hwaits => (h.gone k hk).2 j (waits_drop hwaits)⟩
  store_iff := h.store_iff

/-- Behind the oldest operation no addition of its item is on its way. -/
lemma Consistent.not_waits (h : Consistent n) {op : Op κ ν} {rest : List (Op κ ν)}
    (hout : n.outbox i = op :: rest) (j : ι) : ¬(n.drop i).Waits j op.key := by
  intro hwaits
  have hmem : op ∈ n.outbox i := by simp [hout]
  have hji : j = i := by
    cases op with
    | add key item => exact h.alone j i key (waits_drop hwaits) ⟨item, hmem⟩
    | remove key => exact h.after i j key hmem (waits_drop hwaits)
  subst hji
  obtain ⟨item, hitem⟩ := hwaits
  have hrest : .add op.key item ∈ rest := by simpa [Net.drop, hout] using hitem
  have hordered := List.pairwise_cons.mp (hout ▸ h.ordered j)
  exact hordered.1 _ hrest item rfl

variable [DecidableEq κ]

def carryOut (n : Net ι κ ν) : Op κ ν → Net ι κ ν
  | .add key item =>
    { n with
      store := Function.update n.store key (some item), stored := (key, item) :: n.stored }
  | .remove key =>
    { n with store := Function.update n.store key none, removed := key :: n.removed }

omit [DecidableEq ι] in
lemma Known.carryOut (h : n.Known j k item) (op : Op κ ν) : (n.carryOut op).Known j k item := by
  cases op <;> exact h

/-- The oldest operation of a client is carried out. -/
theorem Consistent.carryOut (h : Consistent n) {op : Op κ ν} {rest : List (Op κ ν)}
    (hout : n.outbox i = op :: rest) : Consistent ((n.drop i).carryOut op) := by
  have hdrop := h.drop i
  have hnone := h.not_waits hout
  have hmem : op ∈ n.outbox i := by simp [hout]
  obtain ⟨x, hx⟩ := h.added hmem
  cases op with
  | add key item =>
    have hadded : (key, item) ∈ n.added := h.sent i key item (by simp [hout])
    have hkey : key ∉ n.removed := fun hk => (h.gone key hk).2 i ⟨item, by simp [hout]⟩
    refine { hdrop with stored := ?_, arrived := ?_, store_iff := ?_ }
    · exact List.forall_mem_cons.mpr ⟨hadded, h.stored⟩
    · exact List.forall_mem_cons.mpr ⟨hnone, hdrop.arrived⟩
    · intro k y
      by_cases hk : k = key
      · subst hk
        have hy : (k, y) ∈ n.stored → y = item := fun hy => h.keys k y item (h.stored _ hy) hadded
        simp only [Net.carryOut, Net.drop, Function.update_self, Option.some.injEq, List.mem_cons,
          Prod.mk.injEq, true_and]
        exact ⟨fun heq => ⟨.inl heq.symm, hkey⟩, fun hmem => (hmem.1.elim id hy).symm⟩
      · simpa [Net.carryOut, Net.drop, hk] using h.store_iff k y
  | remove key =>
    refine { hdrop with gone := ?_, store_iff := ?_ }
    · exact List.forall_mem_cons.mpr ⟨⟨⟨x, hx⟩, hnone⟩, hdrop.gone⟩
    · intro k y
      by_cases hk : k = key
      · subst hk
        simp [Net.carryOut, Net.drop]
      · simpa [Net.carryOut, Net.drop, hk] using h.store_iff k y

end Net

end Outbox
