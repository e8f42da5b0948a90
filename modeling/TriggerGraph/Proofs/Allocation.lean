import Mathlib.Data.List.Induction
import Mathlib.Data.List.Infix
import TriggerGraph.Proofs.Registry

/-!
# Ids handed out and reserved

A pool remembers neither the ids it handed out nor the order of its calls: it keeps the last id it
considered, the reserved ids and those it stepped over.  This is enough.  After any calls on an
allocator, in any order over its four spaces, the answers tell exactly what was handed out and
reserved in each space before.
-/

namespace TriggerGraph

/-! ## One search -/

namespace Pool

/-- Neither was the largest id considered last nor was it stepped over. -/
def Fits (pool : Pool) : Prop :=
  pool.last.toNat < limit ∧ ∀ id ∈ pool.skipped, id.toNat < limit

instance (pool : Pool) : Decidable pool.Fits :=
  haveI := List.decidableBAll (fun id : UInt32 => id.toNat < limit) pool.skipped
  inferInstanceAs (Decidable (_ ∧ _))

/-- The search for the next id, round by round: the counter is raised, an id that is reserved is
stepped over, and the first other one ends the search. -/
inductive Search (reserved : List UInt32) :
    (rounds : Nat) → (last : UInt32) → (skipped : List UInt32) → (value : UInt32) →
      (passed : List UInt32) → Prop where
  | stop {last : UInt32} {skipped : List UInt32} (free : last + 1 ∉ reserved) :
      Search reserved 1 last skipped (last + 1) skipped
  | pass {rounds : Nat} {last value : UInt32} {skipped passed : List UInt32}
      (taken : last + 1 ∈ reserved)
      (rest : Search reserved rounds (last + 1) (skipped.insert (last + 1)) value passed) :
      Search reserved (rounds + 1) last skipped value passed

theorem toNat_succ_of_lt_limit {last : UInt32} (room : last.toNat < limit) :
    (last + 1).toNat = last.toNat + 1 :=
  toNat_succ (by simp only [limit] at room; omega)

namespace Search

variable {reserved skipped passed : List UInt32} {rounds : Nat} {last value : UInt32}

theorem subset (search : Search reserved rounds last skipped value passed) : skipped ⊆ passed := by
  induction search with
  | stop free => exact List.Subset.refl _
  | pass taken rest ih => exact fun id member => ih (List.mem_insert_of_mem member)

/-- A search below the limit finds the least id above the last one that is not reserved, and steps
over exactly the ids between them. -/
theorem spec (search : Search reserved rounds last skipped value passed)
    (room : last.toNat < limit) (fits : ∀ id ∈ passed, id.toNat < limit) :
    last < value ∧ value ∉ reserved ∧ (∀ id, last < id → id < value → id ∈ reserved) ∧
      ∀ id, id ∈ passed ↔ id ∈ skipped ∨ last < id ∧ id < value := by
  induction search with
  | stop free =>
      have succ := toNat_succ_of_lt_limit room
      simp only [UInt32.lt_iff_toNat_lt, succ]
      refine ⟨by omega, free, fun id above below => by omega, fun id => ?_⟩
      constructor
      · exact .inl
      · rintro (old | ⟨above, below⟩)
        · exact old
        · omega
  | @pass rounds last value skipped passed taken rest ih =>
      have succ := toNat_succ_of_lt_limit room
      obtain ⟨above, free, between, crossed⟩ :=
        ih (fits _ (rest.subset List.mem_insert_self)) fits
      have first {id : UInt32} : last < id ↔ id = last + 1 ∨ last + 1 < id := by
        rw [UInt32.lt_iff_toNat_lt, UInt32.lt_iff_toNat_lt, ← UInt32.toNat_inj, succ]
        omega
      refine ⟨first.2 (.inr above), free, fun id after before => ?_, fun id => ?_⟩
      · rcases first.1 after with rfl | later
        · exact taken
        · exact between id later before
      · rw [crossed, List.mem_insert_iff, first]
        constructor
        · rintro ((rfl | old) | ⟨later, before⟩)
          · exact .inr ⟨.inl rfl, above⟩
          · exact .inl old
          · exact .inr ⟨.inr later, before⟩
        · rintro (old | ⟨rfl | later, before⟩)
          · exact .inl (.inr old)
          · exact .inl (.inl rfl)
          · exact .inr ⟨later, before⟩

end Search

/-- Below the limit the search comes to an end, after one round for each reserved id at most. -/
theorem search_advance {reserved : List UInt32} {last : UInt32} {pending skipped : List UInt32}
    (room : last.toNat < limit)
    (fits : ∀ id ∈ (advance last pending skipped).2, id.toNat < limit)
    (agree : ∀ id, last < id → (id ∈ reserved ↔ id ∈ pending)) :
    ∃ rounds ≤ pending.length + 1, Search reserved rounds last skipped
      (advance last pending skipped).1 (advance last pending skipped).2 := by
  fun_induction advance last pending skipped with
  | case1 last pending skipped found ih =>
      have succ := toNat_succ_of_lt_limit room
      have next : last < last + 1 := by rw [UInt32.lt_iff_toNat_lt]; omega
      have stepped : last + 1 ∈ (advance (last + 1) (pending.erase (last + 1))
          (skipped.insert (last + 1))).2 := subset_advance _ _ _ List.mem_insert_self
      obtain ⟨rounds, few, search⟩ := ih (fits _ stepped) fits fun id above => by
        have apart : id ≠ last + 1 := by
          rintro rfl
          exact absurd above (UInt32.lt_irrefl _)
        rw [agree id (UInt32.lt_trans next above), List.mem_erase_of_ne apart]
      have shorter := List.length_erase_of_mem found
      have positive := List.length_pos_of_mem found
      exact ⟨rounds + 1, by omega, .pass ((agree _ next).2 found) search⟩
  | case2 last pending skipped absent =>
      have succ := toNat_succ_of_lt_limit room
      have next : last < last + 1 := by rw [UInt32.lt_iff_toNat_lt]; omega
      exact ⟨1, by omega, .stop fun member => absent ((agree _ next).1 member)⟩

theorem search_next {pool : Pool} (room : pool.last.toNat < limit) (fits : pool.next.2.Fits) :
    ∃ rounds ≤ pool.reserved.length + 1,
      Search pool.reserved rounds pool.last pool.skipped pool.next.1 pool.next.2.skipped :=
  search_advance room fits.2 fun _ _ => Iff.rfl

/-! ## What a pool remembers -/

/-- The largest of some ids, zero if there are none. -/
def largest (ids : List UInt32) : UInt32 := ids.foldl max 0

theorem largest_append {ids : List UInt32} {value : UInt32} (above : largest ids < value) :
    largest (ids ++ [value]) = value := by
  have le : largest ids ≤ value := by
    rw [UInt32.le_iff_toNat_le]
    rw [UInt32.lt_iff_toNat_lt] at above
    omega
  rw [largest, List.foldl_append]
  exact if_pos le

/-- The pool answers as one should that handed out some ids, in this order, and reserved others. -/
structure Remembers (pool : Pool) (issued reserved : List UInt32) : Prop where
  rising : issued.Pairwise (· < ·)
  bounded : ∀ id ∈ issued, id ≠ 0 ∧ id ≤ pool.last
  last : pool.last = largest issued
  reserved : ∀ id, id ∈ pool.reserved ↔ id ∈ reserved
  skipped : ∀ id, id ∈ pool.skipped ↔ id ≠ 0 ∧ id ≤ pool.last ∧ id ∉ issued

namespace Remembers

variable {pool : Pool} {issued reserved : List UInt32}

theorem empty : Pool.empty.Remembers [] [] where
  rising := .nil
  bounded := by simp
  last := rfl
  reserved := by simp [Pool.empty]
  skipped id := by
    simp only [Pool.empty, List.not_mem_nil, false_iff, not_and, not_not]
    intro nonzero below
    rw [UInt32.le_iff_toNat_le] at below
    exact absurd (UInt32.toNat_inj.1 (Nat.le_zero.1 below)) nonzero

theorem reserve (remembers : pool.Remembers issued reserved) (value : UInt32) :
    (pool.reserve value).Remembers issued (reserved ++ [value]) where
  rising := remembers.rising
  bounded := remembers.bounded
  last := remembers.last
  reserved id := by
    simp only [Pool.reserve, List.mem_insert_iff, remembers.reserved, List.mem_append,
      List.mem_singleton]
    exact or_comm
  skipped := remembers.skipped

/-- The id handed out next lies above the others, and the ids stepped over for it were not handed
out. -/
theorem next (remembers : pool.Remembers issued reserved) (room : pool.last.toNat < limit)
    (fits : pool.next.2.Fits) : pool.next.2.Remembers (issued ++ [pool.next.1]) reserved := by
  obtain ⟨rounds, _, search⟩ := search_next room fits
  obtain ⟨above, free, between, crossed⟩ := search.spec room fits.2
  have raised : pool.next.2.last = pool.next.1 := rfl
  have below {id : UInt32} (member : id ∈ issued) : id < pool.next.1 :=
    UInt32.lt_of_le_of_lt (remembers.bounded id member).2 above
  constructor
  · rw [List.pairwise_append]
    refine ⟨remembers.rising, List.pairwise_singleton _ _, fun id member value new => ?_⟩
    rw [List.mem_singleton.1 new]
    exact below member
  · intro id member
    rw [raised]
    rcases List.mem_append.1 member with old | new
    · exact ⟨(remembers.bounded id old).1, UInt32.le_of_lt (below old)⟩
    · rw [List.mem_singleton.1 new]
      refine ⟨fun zero => ?_, UInt32.le_refl _⟩
      rw [zero, UInt32.lt_iff_toNat_lt] at above
      exact Nat.not_lt_zero _ above
  · rw [raised, largest_append (remembers.last ▸ above)]
  · exact remembers.reserved
  · intro id
    rw [crossed, remembers.skipped, raised, List.mem_append, List.mem_singleton]
    have out (member : id ∈ issued) : id.toNat ≤ pool.last.toNat :=
      UInt32.le_iff_toNat_le.1 (remembers.bounded id member).2
    simp only [UInt32.lt_iff_toNat_lt, UInt32.le_iff_toNat_le, ne_eq, ← UInt32.toNat_inj,
      UInt32.toNat_zero] at above ⊢
    grind

theorem isIssued_iff (remembers : pool.Remembers issued reserved) (id : UInt32) :
    pool.isIssued id = true ↔ id ∈ issued := by
  have bounded := remembers.bounded id
  simp only [isIssued, Bool.and_eq_true, bne_iff_ne, decide_eq_true_eq, Bool.not_eq_true',
    List.contains_eq_mem, decide_eq_false_iff_not, remembers.skipped]
  grind

theorem isReserved_iff (remembers : pool.Remembers issued reserved) (id : UInt32) :
    pool.isReserved id = true ↔ id ∈ reserved := by
  rw [isReserved, List.contains_iff_mem]
  exact remembers.reserved id

end Remembers
end Pool

/-! ## Calls on an allocator -/

namespace Allocator

/-- One of the four numberings. -/
inductive Space where
  | domain (domain : Domain)
  | items
  deriving DecidableEq

/-- What a call asks for. -/
inductive Request where
  | draw
  | reserve (value : UInt32)
  deriving DecidableEq

/-- A call on an allocator. -/
structure Call where
  /-- Where an id is asked for. -/
  space : Space
  /-- What is asked for. -/
  request : Request
  deriving DecidableEq

/-- The pool of a space. -/
def poolOf (ids : Allocator) : Space → Pool
  | .domain domain => ids.pool domain
  | .items => ids.items

/-- The answer to a call, for a reservation the id reserved, and the allocator after it. -/
def perform (ids : Allocator) : Call → UInt32 × Allocator
  | ⟨.domain domain, .draw⟩ => ((ids.next domain).1.value, (ids.next domain).2)
  | ⟨.domain domain, .reserve value⟩ =>
      ((ids.reserve domain value).1.value, (ids.reserve domain value).2)
  | ⟨.items, .draw⟩ => ids.nextItem
  | ⟨.items, .reserve item⟩ => (item, ids.reserveItem item)

/-- The allocator after some calls. -/
def after (ids : Allocator) : List Call → Allocator
  | [] => ids
  | call :: calls => (ids.perform call).2.after calls

/-- The calls with their answers. -/
def answers (ids : Allocator) : List Call → List (Call × UInt32)
  | [] => []
  | call :: calls => (call, (ids.perform call).1) :: (ids.perform call).2.answers calls

/-- The ids handed out in a space by calls on an empty allocator, in order. -/
def issuedIn (space : Space) (calls : List Call) : List UInt32 :=
  ((empty.answers calls).filter (·.1 = ⟨space, .draw⟩)).map (·.2)

/-- The id that a call reserves in a space. -/
def Call.reserved? (space : Space) (call : Call) : Option UInt32 :=
  match call.request with
  | .draw => none
  | .reserve value => if call.space = space then some value else none

/-- The ids reserved in a space, in order. -/
def reservedIn (space : Space) (calls : List Call) : List UInt32 :=
  calls.filterMap (Call.reserved? space)

/-- The answer of one pool, and the pool afterwards. -/
def Request.answer : Request → Pool → UInt32 × Pool
  | .draw, pool => pool.next
  | .reserve value, pool => (value, pool.reserve value)

/-- A call is answered by the pool of its space. -/
theorem perform_eq (ids : Allocator) (call : Call) :
    (ids.perform call).1 = (call.request.answer (ids.poolOf call.space)).1 := by
  obtain ⟨space, request⟩ := call
  cases space <;> cases request <;> rfl

/-- A call changes the pool of its space and no other. -/
theorem poolOf_perform (ids : Allocator) (call : Call) (space : Space) :
    (ids.perform call).2.poolOf space =
      if space = call.space then (call.request.answer (ids.poolOf space)).2
      else ids.poolOf space := by
  obtain ⟨own, request⟩ := call
  split
  · rename_i same
    subst same
    cases space with
    | domain domain => cases domain <;> cases request <;> rfl
    | items => cases request <;> rfl
  · rename_i apart
    cases own with
    | items =>
        cases space with
        | items => exact absurd rfl apart
        | domain domain => cases request <;> rfl
    | domain other =>
        cases space with
        | items => cases other <;> cases request <;> rfl
        | domain domain =>
            cases domain <;> cases other <;> first | exact absurd rfl apart | cases request <;> rfl

theorem after_append (ids : Allocator) (first second : List Call) :
    ids.after (first ++ second) = (ids.after first).after second := by
  induction first generalizing ids with
  | nil => rfl
  | cons call first ih => exact ih _

theorem answers_append (ids : Allocator) (first second : List Call) :
    ids.answers (first ++ second) = ids.answers first ++ (ids.after first).answers second := by
  induction first generalizing ids with
  | nil => rfl
  | cons call first ih => exact congrArg (List.cons _) (ih _)

theorem issuedIn_append (space : Space) (calls : List Call) (call : Call) :
    issuedIn space (calls ++ [call]) = issuedIn space calls ++
      if call = ⟨space, .draw⟩ then [((empty.after calls).perform call).1] else [] := by
  simp only [issuedIn, answers_append, answers, List.filter_append, List.map_append]
  split <;> simp_all

theorem reservedIn_append (space : Space) (calls : List Call) (call : Call) :
    reservedIn space (calls ++ [call]) =
      reservedIn space calls ++ (call.reserved? space).toList := by
  simp [reservedIn, List.filterMap_cons]
  cases call.reserved? space <;> rfl

/-- No counter has reached the largest id during the calls. -/
def Fit (calls : List Call) : Prop :=
  ∀ earlier, earlier <+: calls → ∀ space, ((empty.after earlier).poolOf space).Fits

/-- All spaces. -/
def Space.all : List Space := [.domain .group, .domain .color, .domain .block, .items]

theorem Space.mem_all (space : Space) : space ∈ all := by
  cases space with
  | domain domain => cases domain <;> decide
  | items => decide

theorem fit_iff (calls : List Call) :
    Fit calls ↔ ∀ earlier ∈ calls.inits, ∀ space ∈ Space.all,
      ((empty.after earlier).poolOf space).Fits := by
  constructor
  · intro fit earlier member space _
    exact fit earlier ((List.mem_inits _ _).1 member) space
  · intro every earlier short space
    exact every earlier ((List.mem_inits _ _).2 short) space space.mem_all

instance (calls : List Call) : Decidable (Fit calls) := decidable_of_iff' _ (fit_iff calls)

/-- What the pool of a space remembers after one more call. -/
theorem remembers_perform {ids : Allocator} {space : Space} {issued reserved : List UInt32}
    (remembers : (ids.poolOf space).Remembers issued reserved) (call : Call)
    (room : (ids.poolOf space).Fits) (fits : ((ids.perform call).2.poolOf space).Fits) :
    ((ids.perform call).2.poolOf space).Remembers
      (issued ++ if call = ⟨space, .draw⟩ then [(ids.perform call).1] else [])
      (reserved ++ (call.reserved? space).toList) := by
  rw [perform_eq]
  rw [poolOf_perform] at fits ⊢
  obtain ⟨own, request⟩ := call
  by_cases same : space = own
  · subst same
    rw [if_pos rfl] at fits ⊢
    cases request with
    | draw => simpa [Call.reserved?, Request.answer] using remembers.next room.1 fits
    | reserve value => simpa [Call.reserved?, Request.answer] using remembers.reserve value
  · have other : (⟨own, request⟩ : Call) ≠ ⟨space, .draw⟩ := by
      rintro ⟨⟩
      exact same rfl
    have unreserved : Call.reserved? space ⟨own, request⟩ = none := by
      cases request with
      | draw => rfl
      | reserve value => exact if_neg (Ne.symm same)
    rw [if_neg same, if_neg other, unreserved, Option.toList_none, List.append_nil,
      List.append_nil]
    exact remembers

/-- After any calls, each pool remembers what was done in its space. -/
theorem remembers_after {calls : List Call} (fit : Fit calls) (space : Space) :
    ((empty.after calls).poolOf space).Remembers (issuedIn space calls)
      (reservedIn space calls) := by
  induction calls using List.reverseRecOn with
  | nil =>
      cases space with
      | domain domain => cases domain <;> exact .empty
      | items => exact .empty
  | append_singleton calls call ih =>
      have before : Fit calls := fun earlier short =>
        fit earlier (short.trans (List.prefix_append _ _))
      have now := fit _ (List.prefix_refl _) space
      rw [after_append] at now ⊢
      rw [issuedIn_append, reservedIn_append]
      exact remembers_perform (ih before) call (before _ (List.prefix_refl _) space) now

/-- Two allocators with the same pool in a space answer the calls on it alike, whatever calls on
other spaces come in between. -/
theorem answers_of_poolOf_eq {space : Space} {one two : Allocator}
    (same : one.poolOf space = two.poolOf space) (calls : List Call) :
    (one.answers calls).filter (·.1.space = space) =
      two.answers (calls.filter (·.space = space)) ∧
    (one.after calls).poolOf space = (two.after (calls.filter (·.space = space))).poolOf space := by
  induction calls generalizing one two with
  | nil => exact ⟨rfl, same⟩
  | cons call calls ih =>
      by_cases own : call.space = space
      · subst own
        have answer : (one.perform call).1 = (two.perform call).1 := by
          rw [perform_eq, perform_eq, same]
        have next : (one.perform call).2.poolOf call.space =
            (two.perform call).2.poolOf call.space := by
          rw [poolOf_perform, poolOf_perform, same]
        obtain ⟨later, pools⟩ := ih next
        rw [List.filter_cons_of_pos (by simp)]
        refine ⟨?_, pools⟩
        rw [answers, answers, List.filter_cons_of_pos (by simp), later, answer]
      · have next : (one.perform call).2.poolOf space = two.poolOf space := by
          rw [poolOf_perform, if_neg (Ne.symm own), same]
        rw [List.filter_cons_of_neg (by simpa using own), answers,
          List.filter_cons_of_neg (by simpa using own)]
        exact ih next

end Allocator

open Allocator in
/-- The law of the allocator, for any calls during which no counter reaches the largest id.  In each
space the ids handed out rise and are not zero.  Each is the least id above those before that was
not reserved by then, and the search for it ends.  Whether an id was handed out or reserved and
which one is the largest are answered from what was done in that space, and nothing done in one
space shows in another. -/
theorem allocator_answers_from_history (calls : List Call) (fit : Fit calls) :
    (∀ space, (issuedIn space calls).Pairwise (· < ·) ∧ 0 ∉ issuedIn space calls) ∧
    (∀ space earlier later, calls = earlier ++ ⟨space, .draw⟩ :: later →
      let pool := (empty.after earlier).poolOf space
      let value := ((empty.after earlier).perform ⟨space, .draw⟩).1
      let water := Pool.largest (issuedIn space earlier)
      water < value ∧ value ∉ reservedIn space earlier ∧
      (∀ other, water < other → other ∉ reservedIn space earlier → value ≤ other) ∧
      ∃ rounds ≤ pool.reserved.length + 1, ∃ passed,
        Pool.Search pool.reserved rounds pool.last pool.skipped value passed) ∧
    (∀ domain value, (empty.after calls).isIssued domain value = true ↔
      value ∈ issuedIn (.domain domain) calls) ∧
    (∀ domain value, (empty.after calls).isReserved domain value = true ↔
      value ∈ reservedIn (.domain domain) calls) ∧
    (∀ domain, (empty.after calls).highWater domain =
      Pool.largest (issuedIn (.domain domain) calls)) ∧
    ∀ space, (empty.answers calls).filter (·.1.space = space) =
        empty.answers (calls.filter (·.space = space)) ∧
      (empty.after calls).poolOf space =
        (empty.after (calls.filter (·.space = space))).poolOf space := by
  have remembers := remembers_after fit
  refine ⟨fun space => ⟨(remembers space).rising, fun zero => ?_⟩, ?_,
    fun domain => (remembers (.domain domain)).isIssued_iff,
    fun domain => (remembers (.domain domain)).isReserved_iff,
    fun domain => (remembers (.domain domain)).last, fun space => answers_of_poolOf_eq rfl calls⟩
  · exact ((remembers space).bounded 0 zero).1 rfl
  · rintro space earlier later rfl
    have before : Fit earlier := fun first short =>
      fit first (short.trans (List.prefix_append _ _))
    have held := remembers_after before space
    have room := (before earlier (List.prefix_refl _) space).1
    have next := fit (earlier ++ [⟨space, .draw⟩]) (by simp) space
    rw [after_append, after, after, poolOf_perform, if_pos rfl] at next
    obtain ⟨rounds, few, search⟩ := Pool.search_next room next
    obtain ⟨above, free, between, _⟩ := search.spec room next.2
    dsimp only
    rw [perform_eq, ← held.last]
    simp only [← held.reserved]
    refine ⟨above, free, fun other beyond unreserved => ?_, rounds, few, _, search⟩
    refine UInt32.not_lt.1 fun less => ?_
    exact unreserved (between other beyond less)

/-- Calls that reserve ids before they are reached, after they were handed out and far ahead, with
calls on other spaces in between. -/
def Allocator.Call.mixed : List Allocator.Call :=
  [⟨.domain .group, .reserve 2⟩, ⟨.domain .group, .draw⟩, ⟨.items, .reserve 1⟩,
    ⟨.domain .group, .draw⟩, ⟨.domain .group, .reserve 1⟩, ⟨.domain .color, .draw⟩,
    ⟨.domain .group, .reserve 9⟩, ⟨.items, .draw⟩, ⟨.domain .group, .draw⟩]

theorem allocator_answers_after_mixed :
    Allocator.Fit Allocator.Call.mixed ∧
      Allocator.issuedIn (.domain .group) Allocator.Call.mixed = [1, 3, 4] ∧
      (Allocator.empty.after Allocator.Call.mixed).isIssued .group 1 = true ∧
      (Allocator.empty.after Allocator.Call.mixed).isIssued .group 2 = false ∧
      (Allocator.empty.after Allocator.Call.mixed).highWater .group = 4 := by
  have fit : Allocator.Fit Allocator.Call.mixed := by decide +kernel
  have issued : Allocator.issuedIn (.domain .group) Allocator.Call.mixed = [1, 3, 4] := by
    decide +kernel
  obtain ⟨_, _, isIssued, _, water, _⟩ := allocator_answers_from_history _ fit
  refine ⟨fit, issued, (isIssued _ _).2 ?_, Bool.eq_false_iff.2 fun answer => ?_, ?_⟩
  · rw [issued]
    decide
  · have member := (isIssued _ _).1 answer
    rw [issued] at member
    exact absurd member (by decide)
  · rw [water, issued]
    rfl

end TriggerGraph
