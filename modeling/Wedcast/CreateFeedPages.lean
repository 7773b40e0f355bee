import Mathlib.Data.List.Nodup
import Mathlib.Data.List.Perm.Basic
import Wedcast.CreateFeedFields
import Wedcast.Lib.History

/-!
The order in which the wizard shows its pages.

Every press of "Next" but the one on page 1 turns the page itself; the one on page 1 leaves it to
the reply of its availability read, which turns whatever page is on the screen by then. So the pages
come in order as long as every reply that turns a page finds the wizard on page 1.
-/

namespace Wedcast.CreateFeed

open Runs

variable {L : LowerCase}

/-- A press of "Next", and the page it was made on. -/
structure Press where
  number : ℕ
  page : ℕ
  deriving DecidableEq

/-- A step to a later page, and the press that caused it. -/
structure Move where
  press : Option Press
  source : ℕ
  target : ℕ
  deriving DecidableEq

/-- What a run is noted to have done. -/
structure Notes where
  presses : ℕ
  /-- The presses the pending reads were issued by, in the order of the reads. -/
  asked : List Press
  /-- The steps to a later page, the last one in front. -/
  moves : List Move
  deriving DecidableEq

def Notes.init : Notes := ⟨0, [], []⟩

/-- The press an event goes back to. -/
def cause (x : State × Notes) : Event → Option Press
  | .next => some ⟨x.2.presses, x.1.currentPage⟩
  | .reply i => x.2.asked[i]?
  | _ => none

def noteMove (x : State × Notes) (e : Event) (s' : State) : List Move :=
  if x.1.currentPage < s'.currentPage then
    ⟨cause x e, x.1.currentPage, s'.currentPage⟩ :: x.2.moves
  else x.2.moves

def notePages (x : State × Notes) (e : Event) (s' : State) : Notes :=
  match e with
  | .next =>
    { presses := x.2.presses + 1
      asked :=
        if x.1.reads.length < s'.reads.length then
          x.2.asked ++ [⟨x.2.presses, x.1.currentPage⟩]
        else x.2.asked
      moves := noteMove x e s' }
  | .reply i | .readFailed i =>
    { x.2 with asked := x.2.asked.eraseIdx i, moves := noteMove x e s' }
  | _ => { x.2 with moves := noteMove x e s' }

/-- The last page. -/
def State.lastPage (s : State) : ℕ := if s.isAnonymous then 4 else 3

def Move.number (m : Move) : Option ℕ := m.press.map (·.number)

/-- The wizard is on one of its pages, and has come there in order: every step to a later page led
to the next one, from the page of the press that caused it, and no press caused two. -/
def InOrder (x : State × Notes) : Prop :=
  x.1.currentPage ≤ x.1.lastPage ∧
    (∀ m ∈ x.2.moves, m.target = m.source + 1 ∧ m.press.map (·.page) = some m.source) ∧
    (x.2.moves.filterMap Move.number).Nodup

/-- A reply that turns the page finds the wizard on page 1. -/
def OnPageOne (s : State) : Event → Prop
  | .reply i => ∀ r ∈ s.reads[i]?, r.answer = some false → s.currentPage = 1
  | _ => True

instance (x : State × Notes) : Decidable (InOrder x) := inferInstanceAs (Decidable (_ ∧ _))

instance (s : State) : (e : Event) → Decidable (OnPageOne s e)
  | .reply _ => inferInstanceAs (Decidable (∀ r ∈ _, _))
  | .changeText _ _ | .timer | .changePhoneNumber _ | .next | .previous | .answer _ _
  | .readFailed _ | .linkPhone _ | .confirm | .phoneAuth _ _ | .finish _ | .linked _ _
  | .linkFailed _ _ | .signIn | .returnData _ => isTrue trivial

/-! ### What a step does to the page -/

lemma goToPreviousPage_page (s : State) : (goToPreviousPage s).currentPage ≤ s.currentPage := by
  unfold goToPreviousPage
  split_ifs
  · exact Nat.le_refl _
  · exact Nat.sub_le _ _
  · exact Nat.sub_le _ _
  · exact Nat.le_refl _

/-- The event is one of the pager's. -/
def Event.turns : Event → Bool
  | .next | .previous | .reply _ | .readFailed _ | .answer _ _ => true
  | _ => false

/-- The other events leave the page and the reads alone. -/
lemma step_page {s s' : State} {e : Event} (hs : step L s e = some s') (he : e.turns = false) :
    s'.isAnonymous = s.isAnonymous ∧ s'.currentPage = s.currentPage ∧ s'.reads = s.reads := by
  cases e with
  | changeText f text =>
    obtain ⟨-, rfl⟩ := step_cases hs
    rw [onChangeText_eq, changeText_frame]
    exact ⟨rfl, rfl, rfl⟩
  | timer =>
    obtain ⟨f, t, rest, -, rfl⟩ := step_cases hs
    rw [setField_frame]
    exact ⟨rfl, rfl, rfl⟩
  | confirm =>
    obtain ⟨-, -, -, rfl⟩ := step_cases hs
    rw [confirmVerification_frame]
    exact ⟨rfl, rfl, rfl⟩
  | phoneAuth i st =>
    obtain ⟨-, rfl⟩ := step_cases hs
    cases st with
    | autoVerified code =>
      rw [onStateChanged, confirmVerification_frame]
      exact ⟨rfl, rfl, rfl⟩
    | codeSent | error | autoVerifyTimeout => exact ⟨rfl, rfl, rfl⟩
  | linkPhone valid =>
    obtain ⟨-, -, -, rfl⟩ := step_cases hs
    rw [linkPhone_frame]
    exact ⟨rfl, rfl, rfl⟩
  | finish newFeedId =>
    obtain ⟨-, -, rfl⟩ := step_cases hs
    exact ⟨rfl, rfl, rfl⟩
  | changePhoneNumber n | linked i _ | linkFailed i _ =>
    obtain ⟨-, rfl⟩ := step_cases hs
    exact ⟨rfl, rfl, rfl⟩
  | signIn | returnData avatarUri =>
    cases step_cases hs
    exact ⟨rfl, rfl, rfl⟩
  | _ => simp [Event.turns] at he

/-! ### Pages in order -/

/-- The presses that are waiting for a reply or have caused a step. -/
def Notes.numbers (n : Notes) : List ℕ := n.asked.map (·.number) ++ n.moves.filterMap Move.number

/-- What holds while every reply that turns a page finds the wizard on page 1. -/
structure Paged (x : State × Notes) : Prop where
  range : x.1.currentPage ≤ x.1.lastPage
  moves : ∀ m ∈ x.2.moves, m.target = m.source + 1 ∧ m.press.map (·.page) = some m.source
  asked_reads : x.2.asked.length = x.1.reads.length
  asked_page : ∀ p ∈ x.2.asked, p.page = 1
  nodup : x.2.numbers.Nodup
  old : ∀ n ∈ x.2.numbers, n < x.2.presses

lemma paged_mount (u : User) : Paged (mount u, .init) where
  range := by simp [mount]
  moves := by simp [Notes.init]
  asked_reads := rfl
  asked_page := by simp [Notes.init]
  nodup := by simp [Notes.numbers, Notes.init]
  old := by simp [Notes.numbers, Notes.init]

lemma Paged.inOrder {x : State × Notes} (h : Paged x) : InOrder x :=
  ⟨h.range, h.moves, h.nodup.of_append_right⟩

lemma noteMove_of_le {x : State × Notes} {t : State} (e : Event)
    (h : t.currentPage ≤ x.1.currentPage) : noteMove x e t = x.2.moves :=
  if_neg (by omega)

lemma noteMove_of_succ {x : State × Notes} {t : State} (e : Event)
    (h : t.currentPage = x.1.currentPage + 1) :
    noteMove x e t = ⟨cause x e, x.1.currentPage, x.1.currentPage + 1⟩ :: x.2.moves := by
  rw [noteMove, if_pos (by omega), h]

lemma lastPage_congr {s s' : State} (h : s'.isAnonymous = s.isAnonymous) :
    s'.lastPage = s.lastPage := by
  rw [State.lastPage, State.lastPage, h]

lemma three_le_lastPage (s : State) : 3 ≤ s.lastPage := by
  unfold State.lastPage
  split_ifs <;> omega

/-- A step that turns no page forward and issues no read. -/
lemma Paged.stay {x : State × Notes} (h : Paged x) {t : State}
    (hanon : t.isAnonymous = x.1.isAnonymous) (hpage : t.currentPage ≤ x.1.currentPage)
    (hreads : t.reads.length = x.1.reads.length) {n : ℕ} (hn : x.2.presses ≤ n) :
    Paged (t, { x.2 with presses := n }) where
  range := by
    have := h.range
    have hlast := lastPage_congr hanon
    simp only [hlast]
    omega
  moves := h.moves
  asked_reads := h.asked_reads.trans hreads.symm
  asked_page := h.asked_page
  nodup := h.nodup
  old m hm := Nat.lt_of_lt_of_le (h.old m hm) hn

/-- The read of a press is over, and has turned no page. -/
lemma Paged.forget {x : State × Notes} (h : Paged x) {t : State}
    (hanon : t.isAnonymous = x.1.isAnonymous) (hpage : t.currentPage ≤ x.1.currentPage) {i : ℕ}
    (hi : i < x.1.reads.length) (hreads : t.reads = x.1.reads.eraseIdx i) :
    Paged (t, { x.2 with asked := x.2.asked.eraseIdx i }) where
  range := by
    have := h.range
    have hlast := lastPage_congr hanon
    simp only [hlast]
    omega
  moves := h.moves
  asked_reads := by
    have hlen := h.asked_reads
    simp only [hreads]
    rw [List.length_eraseIdx_of_lt (by omega), List.length_eraseIdx_of_lt hi, hlen]
  asked_page p hp := h.asked_page p (List.mem_of_mem_eraseIdx hp)
  nodup := h.nodup.sublist ((List.eraseIdx_sublist _ _).map _ |>.append_right _)
  old m hm := h.old m (((List.eraseIdx_sublist _ _).map _ |>.append_right _).mem hm)

/-- A press has a new number. -/
lemma Paged.number {x : State × Notes} (h : Paged x) {n : Notes}
    (hperm : n.numbers.Perm (x.2.presses :: x.2.numbers)) (hpresses : n.presses = x.2.presses + 1) :
    n.numbers.Nodup ∧ ∀ k ∈ n.numbers, k < n.presses := by
  have hnew : x.2.presses ∉ x.2.numbers := fun hm => absurd (h.old _ hm) (Nat.lt_irrefl _)
  refine ⟨hperm.nodup_iff.mpr (List.nodup_cons.mpr ⟨hnew, h.nodup⟩), fun k hk => ?_⟩
  rw [hpresses]
  rcases List.mem_cons.mp (hperm.mem_iff.mp hk) with rfl | hk
  · exact Nat.lt_succ_self _
  · exact Nat.lt_succ_of_lt (h.old k hk)

/-- A press on another page than 1 turns it. -/
lemma Paged.turn {x : State × Notes} (h : Paged x) {t : State}
    (hanon : t.isAnonymous = x.1.isAnonymous) (hpage : t.currentPage = x.1.currentPage + 1)
    (hrange : x.1.currentPage + 1 ≤ x.1.lastPage) (hreads : t.reads = x.1.reads) :
    Paged (t, ⟨x.2.presses + 1, x.2.asked, ⟨some ⟨x.2.presses, x.1.currentPage⟩,
      x.1.currentPage, x.1.currentPage + 1⟩ :: x.2.moves⟩) := by
  obtain ⟨hnodup, hold⟩ := h.number (n := ⟨x.2.presses + 1, x.2.asked,
    ⟨some ⟨x.2.presses, x.1.currentPage⟩, x.1.currentPage, x.1.currentPage + 1⟩ :: x.2.moves⟩)
    List.perm_middle rfl
  refine ⟨?_, ?_, ?_, h.asked_page, hnodup, hold⟩
  · simp only [hpage, lastPage_congr hanon]
    exact hrange
  · intro m hm
    rcases List.mem_cons.mp hm with rfl | hm
    · exact ⟨rfl, rfl⟩
    · exact h.moves m hm
  · rw [hreads]
    exact h.asked_reads

/-- A press on page 1 issues a read. -/
lemma Paged.ask {x : State × Notes} (h : Paged x) {t : State}
    (hanon : t.isAnonymous = x.1.isAnonymous) (hpage : t.currentPage = x.1.currentPage)
    (hone : x.1.currentPage = 1) (hreads : t.reads.length = x.1.reads.length + 1) :
    Paged (t, ⟨x.2.presses + 1, x.2.asked ++ [⟨x.2.presses, x.1.currentPage⟩], x.2.moves⟩) := by
  obtain ⟨hnodup, hold⟩ := h.number (n := ⟨x.2.presses + 1,
    x.2.asked ++ [⟨x.2.presses, x.1.currentPage⟩], x.2.moves⟩) (by
      simp only [Notes.numbers, List.map_append, List.map_cons, List.map_nil, List.append_assoc,
        List.singleton_append]
      exact List.perm_middle) rfl
  refine ⟨?_, h.moves, ?_, ?_, hnodup, hold⟩
  · simp only [hpage, lastPage_congr hanon]
    exact h.range
  · rw [List.length_append, List.length_singleton, h.asked_reads, hreads]
  · intro p hp
    rcases List.mem_append.mp hp with hp | hp
    · exact h.asked_page p hp
    · rw [List.mem_singleton.mp hp]
      exact hone

/-- A reply turns page 1 for the press that asked. -/
lemma Paged.answer {x : State × Notes} (h : Paged x) {t : State}
    (hpage : t.currentPage = x.1.currentPage + 1)
    (hone : x.1.currentPage = 1) {i : ℕ} (hi : i < x.1.reads.length)
    (hreads : t.reads = x.1.reads.eraseIdx i) :
    Paged (t, { x.2 with
      asked := x.2.asked.eraseIdx i
      moves := ⟨x.2.asked[i]?, x.1.currentPage, x.1.currentPage + 1⟩ :: x.2.moves }) := by
  have hia : i < x.2.asked.length := by rw [h.asked_reads]; exact hi
  have hp : x.2.asked[i]? = some x.2.asked[i] := List.getElem?_eq_getElem hia
  have hperm : Notes.numbers { x.2 with
      asked := x.2.asked.eraseIdx i
      moves := ⟨x.2.asked[i]?, x.1.currentPage, x.1.currentPage + 1⟩ :: x.2.moves } |>.Perm
        x.2.numbers := by
    have herase := ((List.getElem_cons_eraseIdx_perm hia).map Press.number).append_right
      (x.2.moves.filterMap Move.number)
    refine List.Perm.trans ?_ herase
    rw [hp]
    exact List.perm_middle
  refine ⟨?_, ?_, ?_, ?_, hperm.nodup_iff.mpr h.nodup, fun n hn => h.old n (hperm.mem_iff.mp hn)⟩
  · have hlast := three_le_lastPage t
    simp only [hpage, hone]
    omega
  · intro m hm
    rcases List.mem_cons.mp hm with rfl | hm
    · refine ⟨rfl, ?_⟩
      rw [hp, Option.map_some, h.asked_page _ (List.getElem_mem hia), hone]
    · exact h.moves m hm
  · simp only [hreads]
    rw [List.length_eraseIdx_of_lt hia, List.length_eraseIdx_of_lt hi, h.asked_reads]
  · exact fun p hp => h.asked_page p (List.mem_of_mem_eraseIdx hp)

/-- The page an enabled press is made on is not the last one. -/
lemma page_lt_of_nextEnabled {s : State} (hr : s.currentPage ≤ s.lastPage) (h : s.nextEnabled) :
    s.currentPage + 1 ≤ s.lastPage := by
  unfold State.nextEnabled at h
  unfold State.lastPage at hr ⊢
  split_ifs at h with hp
  · rw [if_pos h]
    omega
  · simp only [Bool.and_eq_true, decide_eq_true_eq, ne_eq] at h
    split_ifs at hr ⊢ <;> omega

lemma paged_step {x y : State × Notes} {e : Event} (h : Paged x) (hg : OnPageOne x.1 e)
    (hs : noting (step L) notePages x e = some y) : Paged y := by
  obtain ⟨hstep, hnote⟩ := noting_some hs
  obtain ⟨s', n'⟩ := y
  obtain rfl : n' = notePages x e s' := hnote
  by_cases hturns : e.turns
  swap
  · -- the page is left as it is
    obtain ⟨hanon, hpage, hreads⟩ := step_page hstep (by simpa using hturns)
    have hle : s'.currentPage ≤ x.1.currentPage := Nat.le_of_eq hpage
    have hstay := h.stay hanon hle (congrArg List.length hreads) (Nat.le_refl _)
    have hmove := noteMove_of_le (x := x) e hle
    cases e with
    | next | previous | answer i taken | reply i | readFailed i => simp [Event.turns] at hturns
    | _ => simpa only [notePages, hmove] using hstay
  cases e with
  | next =>
    obtain ⟨hon, rfl⟩ := step_cases hstep
    have hanon : (goToNextPage x.1).isAnonymous = x.1.isAnonymous := by rw [goToNextPage_frame]
    rcases goToNextPage_cases x.1 with ⟨hone, heq⟩ | ⟨-, heq | ⟨disableNext, heq⟩⟩
    · have hpage : (goToNextPage x.1).currentPage = x.1.currentPage := by rw [heq]
      have hreads : (goToNextPage x.1).reads.length = x.1.reads.length + 1 := by
        rw [heq, List.length_append, List.length_singleton]
      have hask := h.ask hanon hpage hone hreads
      have hmove := noteMove_of_le (x := x) .next (Nat.le_of_eq hpage)
      simpa only [notePages, hmove, hreads, Nat.lt_succ_self, if_true] using hask
    · have hstay := h.stay (t := x.1) rfl (Nat.le_refl _) rfl (Nat.le_succ _)
      have hmove := noteMove_of_le (x := x) .next (Nat.le_refl x.1.currentPage)
      simpa only [heq, notePages, hmove, Nat.lt_irrefl, if_false] using hstay
    · have hpage : (goToNextPage x.1).currentPage = x.1.currentPage + 1 := by rw [heq]
      have hreads : (goToNextPage x.1).reads = x.1.reads := by rw [heq]
      have hturn := h.turn hanon hpage (page_lt_of_nextEnabled h.range hon) hreads
      have hmove := noteMove_of_succ (x := x) .next hpage
      simpa only [notePages, hmove, hreads, Nat.lt_irrefl, if_false, cause] using hturn
  | previous =>
    obtain ⟨-, rfl⟩ := step_cases hstep
    have hpage := goToPreviousPage_page x.1
    have hanon : (goToPreviousPage x.1).isAnonymous = x.1.isAnonymous := by
      rw [goToPreviousPage_frame]
    have hreads : (goToPreviousPage x.1).reads = x.1.reads := by rw [goToPreviousPage_frame]
    have hstay := h.stay hanon hpage (congrArg List.length hreads) (Nat.le_refl _)
    simpa only [notePages, noteMove_of_le .previous hpage] using hstay
  | answer i taken =>
    obtain ⟨castId, edition, -, rfl⟩ := step_cases hstep
    have hstay := h.stay (t := { x.1 with reads := x.1.reads.set i ⟨castId, some taken, edition⟩ })
      rfl (Nat.le_refl _) (List.length_set ..) (Nat.le_refl _)
    simpa only [notePages, noteMove_of_le, Nat.le_refl] using hstay
  | reply i =>
    obtain ⟨r, taken, hr, htaken, rfl⟩ := step_cases hstep
    obtain ⟨hi, -⟩ := List.getElem?_eq_some_iff.mp hr
    cases taken with
    | true =>
      have hforget := h.forget (t := { x.1 with reads := x.1.reads.eraseIdx i }) rfl
        (Nat.le_refl _) hi rfl
      simpa only [notePages, onAvailability, noteMove_of_le, Nat.le_refl, if_true] using hforget
    | false =>
      have hone := hg r (Option.mem_def.mpr hr) htaken
      have hanswer := h.answer (t := onAvailability r false
        { x.1 with reads := x.1.reads.eraseIdx i }) rfl hone hi rfl
      have hmove := noteMove_of_succ (x := x) (.reply i) (t := onAvailability r false
        { x.1 with reads := x.1.reads.eraseIdx i }) rfl
      simpa only [notePages, hmove, cause] using hanswer
  | readFailed i =>
    obtain ⟨hi, rfl⟩ := step_cases hstep
    have hforget := h.forget (t := { x.1 with reads := x.1.reads.eraseIdx i }) rfl
      (Nat.le_refl _) hi rfl
    simpa only [notePages, noteMove_of_le, Nat.le_refl] using hforget
  | _ => simp [Event.turns] at hturns

/-- A reply that turns another page than 1 is noted as a step its press was not made for. -/
lemma onPageOne_of_inOrder {x y : State × Notes} {e : Event} (h : Paged x)
    (hs : noting (step L) notePages x e = some y) (hy : InOrder y) : OnPageOne x.1 e := by
  obtain ⟨hstep, hnote⟩ := noting_some hs
  obtain ⟨s', n'⟩ := y
  obtain rfl : n' = notePages x e s' := hnote
  cases e with
  | reply i =>
    obtain ⟨r, taken, hr, htaken, rfl⟩ := step_cases hstep
    intro r' hr' hfree
    obtain rfl : r = r' := Option.some.inj (hr.symm.trans hr')
    obtain rfl : taken = false := Option.some.inj (htaken.symm.trans hfree)
    obtain ⟨hi, -⟩ := List.getElem?_eq_some_iff.mp hr
    have hia : i < x.2.asked.length := by rw [h.asked_reads]; exact hi
    have hmove := noteMove_of_succ (x := x) (.reply i) (t := onAvailability r false
      { x.1 with reads := x.1.reads.eraseIdx i }) rfl
    have hpress := (hy.2.1 ⟨cause x (.reply i), x.1.currentPage, x.1.currentPage + 1⟩ (by
      simp only [notePages, hmove, List.mem_cons_self])).2
    rw [cause, List.getElem?_eq_getElem hia, Option.map_some] at hpress
    exact (Option.some.inj hpress).symm.trans (h.asked_page _ (List.getElem_mem hia))
  | _ => trivial

def paging : Invariant (noting (step L) notePages) fun x e => OnPageOne x.1 e where
  holds := Paged
  preserved := paged_step

/-- **The pages in order, exactly.** The wizard stays on its pages, and every page is entered going
forward by a press of "Next" on the page before it that enters no other, on exactly the runs in
which each reply that turns the page finds the wizard on page 1. -/
theorem inOrder_iff_onPageOne (u : User) (es : List Event) :
    Throughout (noting (step L) notePages) InOrder (mount u, .init) es ↔
      Along (step L) OnPageOne (mount u) es := by
  rw [← along_noting (x := (mount u, Notes.init))]
  exact paging.throughout_iff (fun _ => Paged.inOrder) (fun _ _ _ => onPageOne_of_inOrder)
    (paged_mount u)

/-- "Next" is pressed, the castId gets another letter, and "Next" is pressed again before the first
read is answered; both reads find their castId free. -/
def pressedTwice : List Event :=
  [.changeText .feedName (txt ['q']), .next, .changeText .castId (txt ['a', 'b']), .next,
    .changeText .castId (txt ['a', 'b', 'c']), .next, .answer 0 false, .answer 1 false,
    .reply 0, .reply 0]

/-- **The password page is skipped.** The second reply turns it. -/
theorem not_always_inOrder :
    ¬∀ (L : LowerCase) (u : User) (es : List Event),
      Throughout (noting (step L) notePages) InOrder (mount u, .init) es := by
  intro h
  have hrun := h asciiLowerCase host pressedTwice
  revert hrun
  decide

end Wedcast.CreateFeed
