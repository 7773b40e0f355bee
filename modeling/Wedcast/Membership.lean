import Mathlib.Logic.Function.Basic
import Wedcast.Lib.Runs
import Wedcast.Database

/-!
Joining and leaving a cast as a guest.

A guest's membership is kept twice: as a record under the cast's `members` and as an entry of the
guest's `feedList`. A client issues its writes in order and the database settles them in that
order; it may reject the writes under a cast, never the ones under the user's own path.
`requestAccess` and `leaveWedding` issue both writes at once, `handleLogin` issues the second in
the success callback of the first.
-/

namespace Wedcast.Membership

open Runs

/-- A write on its way to the database, and the write its success callback issues. -/
structure Issued where
  write : Write
  onSuccess : Option Write
  deriving DecidableEq

structure World where
  /-- `feeds/feedNew/<castId>/members/<uid>` -/
  member : Text → Text → Option MemberRecord
  /-- `users/<uid>/feedList/<castId>` -/
  feedList : Text → Text → Option ChatInfo
  /-- The writes of each user's client not settled yet, the oldest first. -/
  pending : Text → List Issued
  /-- The success callbacks not run yet, by the write they issue. -/
  callbacks : Text → List Write

def World.init (member : Text → Text → Option MemberRecord)
    (feedList : Text → Text → Option ChatInfo) : World :=
  ⟨member, feedList, fun _ => [], fun _ => []⟩

def World.issue (w : World) (uid : Text) (is : List Issued) : World :=
  { w with pending := Function.update w.pending uid (w.pending uid ++ is) }

/-- `requestAccess` of `PrivateFeed` -/
def requestAccess (user : User) (castId password : Text) (feed : ChatInfo) (w : World) : World :=
  let userObj := ⟨user.displayName, user.photoUrl, some password⟩
  w.issue user.uid
    [⟨.member castId user.uid userObj, none⟩, ⟨.feedList user.uid castId feed, none⟩]

/-- `"examplewedcast"` -/
def exampleId : Text :=
  txt ['e', 'x', 'a', 'm', 'p', 'l', 'e', 'w', 'e', 'd', 'c', 'a', 's', 't']

def exampleWedcast : ChatInfo where
  feedId := txt ['f', '9', 'm', 'r', 'o', '3']
  owner := txt ['z', 'u', 'k', '3', 'x', 'K', 'C', 'b', 'n', 'P', 'h', 'a', 'x', '3', 'k', 'U',
    'k', '5', 'y', 'W', 'i', 'M', 'J', 'y', 'D', 'H', 'u', '2']
  feedName := txt ['E', 'x', 'a', 'm', 'p', 'l', 'e', ' ', 'W', 'e', 'd', 'c', 'a', 's', 't']
  castType := 0
  castId := exampleId
  avatarUri := none
  startedAt := .ms 1535386373761

/-- `handleLogin` of `LoginAvatar`, from the callback of its profile write on. -/
def handleLogin (user : User) (w : World) : World :=
  let userObj := ⟨user.displayName, user.photoUrl, some (txt ['w', 'e', 'd', 'c', 'a', 's', 't'])⟩
  w.issue user.uid
    [⟨.member exampleId user.uid userObj, some (.feedList user.uid exampleId exampleWedcast)⟩]

/-- `leaveWedding` of `WeddingDetails` -/
def leaveWedding (uid castId : Text) (w : World) : World :=
  w.issue uid
    [⟨.removeMember castId uid, none⟩, ⟨.removeFeedList uid castId, none⟩,
      ⟨.removeFeedList uid castId, none⟩]

/-- A value under two keys. -/
def set₂ {α : Type*} (f : Text → Text → α) (a b : Text) (x : α) : Text → Text → α :=
  Function.update f a (Function.update (f a) b x)

/-- The database carries out a write; the other paths play no part here. -/
def World.apply (w : World) : Write → World
  | .member castId uid userObj => { w with member := set₂ w.member castId uid (some userObj) }
  | .removeMember castId uid => { w with member := set₂ w.member castId uid none }
  | .feedList uid castId feed => { w with feedList := set₂ w.feedList uid castId (some feed) }
  | .removeFeedList uid castId => { w with feedList := set₂ w.feedList uid castId none }
  | _ => w

/-- The database may reject a write outside the user's own path. -/
def rejectable : Write → Bool
  | .member _ _ _ | .removeMember _ _ => true
  | _ => false

inductive Event where
  | requestAccess (user : User) (castId password : Text) (feed : ChatInfo)
  | handleLogin (user : User)
  | leaveWedding (uid castId : Text)
  /-- The oldest write of the user's client is accepted or rejected. -/
  | settle (uid : Text) (accepted : Bool)
  /-- The oldest success callback of the user's client runs. -/
  | callback (uid : Text)
  deriving DecidableEq

def step (w : World) : Event → Option World
  | .requestAccess user castId password feed => some (requestAccess user castId password feed w)
  | .handleLogin user => some (handleLogin user w)
  | .leaveWedding uid castId => some (leaveWedding uid castId w)
  | .settle uid accepted =>
    match w.pending uid with
    | [] => none
    | i :: rest =>
      let w := { w with pending := Function.update w.pending uid rest }
      if accepted then
        some { w.apply i.write with
          callbacks := Function.update w.callbacks uid (w.callbacks uid ++ i.onSuccess.toList) }
      else if rejectable i.write then some w else none
  | .callback uid =>
    match w.callbacks uid with
    | [] => none
    | wr :: rest =>
      some ({ w with callbacks := Function.update w.callbacks uid rest }.issue uid [⟨wr, none⟩])

/-- Everything the user's client has issued has settled. -/
def Settled (w : World) (u : Text) : Prop := w.pending u = [] ∧ w.callbacks u = []

/-- The two sides agree on whether the user is a guest of the cast. -/
def Agree (w : World) (u c : Text) : Prop := (w.feedList u c).isSome ↔ (w.member c u).isSome

instance (w : World) (u : Text) : Decidable (Settled w u) :=
  inferInstanceAs (Decidable (_ ∧ _))

instance (w : World) (u c : Text) : Decidable (Agree w u c) :=
  inferInstanceAs (Decidable (_ ↔ _))

/-! ### What the writes do to one user and one cast -/

/-- Whether the user has a record after the write. -/
def memberAfter (u c : Text) (b : Bool) : Write → Bool
  | .member castId uid _ => if castId = c ∧ uid = u then true else b
  | .removeMember castId uid => if castId = c ∧ uid = u then false else b
  | _ => b

/-- Whether the cast is in the user's list after the write. -/
def listAfter (u c : Text) (b : Bool) : Write → Bool
  | .feedList uid castId _ => if castId = c ∧ uid = u then true else b
  | .removeFeedList uid castId => if castId = c ∧ uid = u then false else b
  | _ => b

/-- The write takes the user out of the cast, on one of the sides. -/
def removes (u c : Text) : Write → Bool
  | .removeMember castId uid | .removeFeedList uid castId => castId = c ∧ uid = u
  | _ => false

/-- The write puts the cast into the user's list. -/
def lists (u c : Text) : Write → Bool
  | .feedList uid castId _ => castId = c ∧ uid = u
  | _ => false

/-- The user's list gets the cast in the success callback of the write. -/
def Issued.awaits (u c : Text) (i : Issued) : Bool := i.onSuccess.any (lists u c)

/-- The steps that keep the two sides together for one user and one cast: a rejected write that
nothing waits for would have changed nothing, and the cast is not left while its place in the
list waits for a callback. -/
def InStep (u c : Text) (w : World) : Event → Prop
  | .settle uid false => uid = u → ∀ i ∈ (w.pending u).head?, i.onSuccess = none →
      memberAfter u c (w.member c u).isSome i.write = (w.member c u).isSome
  | .leaveWedding uid castId => uid = u → castId = c →
      (∀ i ∈ w.pending u, i.awaits u c = false) ∧ ∀ wr ∈ w.callbacks u, lists u c wr = false
  | _ => True

instance (u c : Text) (w : World) : (e : Event) → Decidable (InStep u c w e)
  | .settle _ false => inferInstanceAs (Decidable (_ → ∀ i ∈ _, _ → _))
  | .leaveWedding _ _ => inferInstanceAs (Decidable (_ → _ → (∀ i ∈ _, _) ∧ ∀ wr ∈ _, _))
  | .settle _ true | .requestAccess _ _ _ _ | .handleLogin _ | .callback _ => isTrue trivial

/-- What the writes without a callback leave behind once they are carried out. -/
def final (after : Bool → Write → Bool) (b : Bool) (is : List Issued) : Bool :=
  (is.filter (·.onSuccess.isNone)).foldl (fun b i => after b i.write) b

@[simp] lemma final_nil (after : Bool → Write → Bool) (b : Bool) : final after b [] = b := rfl

lemma final_cons (after : Bool → Write → Bool) (b : Bool) (i : Issued) (is : List Issued) :
    final after b (i :: is) =
      final after (if i.onSuccess.isNone then after b i.write else b) is := by
  cases h : i.onSuccess <;> simp [final, h]

lemma final_append (after : Bool → Write → Bool) (b : Bool) (is js : List Issued) :
    final after b (is ++ js) = final after (final after b is) js := by
  simp [final]

lemma memberAfter_true {u c : Text} {wr : Write} (h : removes u c wr = false) :
    memberAfter u c true wr = true := by
  cases wr <;> simp_all [memberAfter, removes]
  tauto

/-- A record stays until a removal. -/
lemma final_memberAfter_true {u c : Text} {is : List Issued}
    (h : ∀ i ∈ is, removes u c i.write = false) : final (memberAfter u c) true is = true := by
  induction is with
  | nil => rfl
  | cons i is ih =>
    rw [final_cons, memberAfter_true (h i (by simp)), ite_self]
    exact ih fun j hj => h j (List.mem_cons_of_mem _ hj)

lemma set₂_apply {α : Type*} (f : Text → Text → α) (a b c d : Text) (x : α) :
    set₂ f a b x c d = if a = c ∧ b = d then x else f c d := by
  unfold set₂
  by_cases hc : c = a
  · subst hc
    by_cases hd : d = b
    · subst hd; simp
    · simp [hd, Ne.symm hd]
  · simp [hc, Ne.symm hc]

@[simp] lemma apply_member (w : World) (wr : Write) (u c : Text) :
    ((w.apply wr).member c u).isSome = memberAfter u c (w.member c u).isSome wr := by
  cases wr <;> simp only [World.apply, memberAfter, set₂_apply] <;> split_ifs <;> rfl

@[simp] lemma apply_feedList (w : World) (wr : Write) (u c : Text) :
    ((w.apply wr).feedList u c).isSome = listAfter u c (w.feedList u c).isSome wr := by
  cases wr <;> simp only [World.apply, listAfter, set₂_apply, and_comm] <;> split_ifs <;> rfl

@[simp] lemma apply_pending (w : World) (wr : Write) : (w.apply wr).pending = w.pending := by
  cases wr <;> rfl

/-! ### One user and one cast along a run -/

/-- The write belongs to the user, and only the record of a cast waits for a callback, which
lists that cast. -/
structure Issued.Of (u : Text) (i : Issued) : Prop where
  member : ∀ v c b, v ≠ u → memberAfter v c b i.write = b
  list : ∀ v c b, v ≠ u → listAfter v c b i.write = b
  waits : ∀ wr ∈ i.onSuccess, ∃ c userObj feed, i.write = .member c u userObj ∧
    wr = .feedList u c feed

structure Joined (u c : Text) (w : World) : Prop where
  own : ∀ v, ∀ i ∈ w.pending v, i.Of v
  callback : ∀ v, ∀ wr ∈ w.callbacks v, ∃ c feed, wr = .feedList v c feed
  /-- No removal is issued behind a write that a callback waits for. -/
  calm : (w.pending u).Pairwise fun i j => i.awaits u c → removes u c j.write = false
  /-- The callback finds the record in place. -/
  awaited : ∀ wr ∈ w.callbacks u, lists u c wr →
    (w.member c u).isSome ∧ ∀ i ∈ w.pending u, removes u c i.write = false
  agree : (∀ wr ∈ w.callbacks u, lists u c wr = false) →
    final (memberAfter u c) (w.member c u).isSome (w.pending u) =
      final (listAfter u c) (w.feedList u c).isSome (w.pending u)

lemma forall_update {α : Type*} {f : Text → List α} {P : Text → α → Prop} {a : Text}
    (h : ∀ v, ∀ x ∈ f v, P v x) (xs : List α) (hxs : ∀ x ∈ xs, P a x) (v : Text) :
    ∀ x ∈ Function.update f a xs v, P v x := by
  by_cases hv : v = a
  · subst hv
    simpa using hxs
  · simpa [hv] using h v

lemma joined_init {member : Text → Text → Option MemberRecord}
    {feedList : Text → Text → Option ChatInfo} {u c : Text}
    (h : Agree (World.init member feedList) u c) : Joined u c (World.init member feedList) where
  own := by simp [World.init]
  callback := by simp [World.init]
  calm := .nil
  awaited := by simp [World.init]
  agree _ := Bool.eq_iff_iff.mpr h.symm

lemma Joined.agree_of_settled {u c : Text} {w : World} (h : Joined u c w) (hs : Settled w u) :
    Agree w u c := by
  have := h.agree (by simp [hs.2])
  simp only [hs.1, final_nil] at this
  exact Bool.eq_iff_iff.mp this.symm

lemma Issued.Of.of_write {v c : Text} {wr : Write} {onSuccess : Option Write}
    (hwr : (∃ r, wr = .member c v r) ∨ wr = .removeMember c v ∨ (∃ f, wr = .feedList v c f) ∨
      wr = .removeFeedList v c)
    (hon : ∀ s ∈ onSuccess, ∃ r feed, wr = .member c v r ∧ s = .feedList v c feed) :
    Issued.Of v ⟨wr, onSuccess⟩ := by
  refine ⟨?_, ?_, fun s hs => ⟨c, hon s hs⟩⟩ <;> intro v' c' b hv <;>
    rcases hwr with ⟨r, rfl⟩ | rfl | ⟨f, rfl⟩ | rfl <;>
    simp [memberAfter, listAfter, Ne.symm hv]

/-- New writes that keep the two sides together, and remove nothing while a callback is due. -/
lemma Joined.issue {u c v : Text} {w : World} (h : Joined u c w) {is : List Issued}
    (hown : ∀ i ∈ is, i.Of v)
    (hcalm : v = u → is.Pairwise fun i j => i.awaits u c → removes u c j.write = false)
    (hquiet : v = u → (∃ j ∈ is, removes u c j.write) → (∀ i ∈ w.pending u, i.awaits u c = false) ∧
      ∀ wr ∈ w.callbacks u, lists u c wr = false)
    (hagree : v = u → ∀ b, final (memberAfter u c) b is = final (listAfter u c) b is) :
    Joined u c (w.issue v is) := by
  have hpend : ∀ x, (w.issue v is).pending x =
      if x = v then w.pending x ++ is else w.pending x := by
    intro x
    by_cases hx : x = v
    · subst hx; simp [World.issue]
    · simp [World.issue, hx]
  refine ⟨?_, h.callback, ?_, ?_, ?_⟩
  · intro x i hi
    rw [hpend] at hi
    split_ifs at hi with hx
    · subst hx
      exact (List.mem_append.mp hi).elim (h.own x i) (hown i)
    · exact h.own x i hi
  · rw [hpend]
    split_ifs with hx
    · refine List.pairwise_append.mpr ⟨h.calm, hcalm hx.symm, fun i hi j hj haw => ?_⟩
      by_contra hrem
      have := (hquiet hx.symm ⟨j, hj, by simpa using hrem⟩).1 i hi
      simp [this] at haw
    · exact h.calm
  · intro wr hwr hl
    obtain ⟨hsome, hrem⟩ := h.awaited wr hwr hl
    refine ⟨hsome, fun i hi => ?_⟩
    rw [hpend] at hi
    split_ifs at hi with hx
    · rcases List.mem_append.mp hi with hi | hi
      · exact hrem i hi
      · by_contra hri
        have := (hquiet hx.symm ⟨i, hi, by simpa using hri⟩).2 wr hwr
        simp [this] at hl
    · exact hrem i hi
  · intro hnone
    have hold := h.agree hnone
    rw [hpend]
    split_ifs with hx
    · rw [final_append, final_append, ← hagree hx.symm]
      exact congrArg (final (memberAfter u c) · is) hold
    · exact hold

lemma Joined.requestAccess {u c : Text} {w : World} (h : Joined u c w) (user : User)
    (castId password : Text) (feed : ChatInfo) :
    Joined u c (requestAccess user castId password feed w) := by
  refine h.issue ?_ ?_ ?_ ?_
  · simp only [List.mem_cons, List.not_mem_nil, or_false]
    rintro i (rfl | rfl)
    · exact .of_write (c := castId) (.inl ⟨_, rfl⟩) (by simp)
    · exact .of_write (c := castId) (.inr (.inr (.inl ⟨_, rfl⟩))) (by simp)
  · simp [removes]
  · simp [removes]
  · rintro rfl b
    by_cases hc : castId = c <;> simp [final, memberAfter, listAfter, hc]

lemma Joined.handleLogin {u c : Text} {w : World} (h : Joined u c w) (user : User) :
    Joined u c (handleLogin user w) := by
  refine h.issue ?_ ?_ ?_ ?_
  · simp only [List.mem_singleton]
    rintro i rfl
    exact .of_write (c := exampleId) (.inl ⟨_, rfl⟩) (by simp)
  · simp
  · simp [removes]
  · simp [final]

lemma Joined.leaveWedding {u c uid castId : Text} {w : World} (h : Joined u c w)
    (hg : uid = u → castId = c →
      (∀ i ∈ w.pending u, i.awaits u c = false) ∧ ∀ wr ∈ w.callbacks u, lists u c wr = false) :
    Joined u c (leaveWedding uid castId w) := by
  refine h.issue ?_ ?_ ?_ ?_
  · simp only [List.mem_cons, List.not_mem_nil, or_false]
    rintro i (rfl | rfl | rfl)
    · exact .of_write (c := castId) (.inr (.inl rfl)) (by simp)
    · exact .of_write (c := castId) (.inr (.inr (.inr rfl))) (by simp)
    · exact .of_write (c := castId) (.inr (.inr (.inr rfl))) (by simp)
  · simp [Issued.awaits]
  · rintro rfl hrem
    exact hg rfl (by simpa [removes] using hrem)
  · rintro rfl b
    by_cases hc : castId = c <;> simp [final, memberAfter, listAfter, hc]

/-- The callback of an accepted record lists the cast. -/
lemma Joined.callback_step {u c uid : Text} {w : World} (h : Joined u c w) {wr : Write}
    {rest : List Write} (hcb : w.callbacks uid = wr :: rest) :
    Joined u c ({ w with callbacks := Function.update w.callbacks uid rest }.issue uid
      [⟨wr, none⟩]) := by
  obtain ⟨c', feed, rfl⟩ := h.callback uid wr (by simp [hcb])
  have hof : Issued.Of uid ⟨.feedList uid c' feed, none⟩ :=
    .of_write (c := c') (.inr (.inr (.inl ⟨_, rfl⟩))) (by simp)
  have hown := forall_update (a := uid) h.own _ (List.forall_mem_append.mpr
    ⟨h.own uid, List.forall_mem_singleton.mpr hof⟩)
  have hcallback := forall_update (a := uid) h.callback rest fun x hx =>
    h.callback uid x (by simp [hcb, hx])
  by_cases hu : u = uid
  · subst hu
    refine ⟨hown, hcallback, ?_, ?_, ?_⟩
    · simpa [World.issue, List.pairwise_append, removes] using h.calm
    · intro wr hwr hl
      obtain ⟨hsome, hrem⟩ := h.awaited wr (by simp_all [World.issue]) hl
      refine ⟨hsome, ?_⟩
      simpa [World.issue, or_imp, forall_and, removes] using hrem
    · intro hnone
      have hnone : ∀ wr ∈ rest, lists u c wr = false := by simpa [World.issue] using hnone
      simp only [World.issue, Function.update_self, final_append]
      by_cases hc : c' = c
      · subst hc
        obtain ⟨hsome, hrem⟩ := h.awaited (.feedList u c' feed) (by simp [hcb]) (by simp [lists])
        rw [hsome, final_memberAfter_true hrem]
        simp [final, memberAfter, listAfter]
      · have hold := h.agree (by simpa [hcb, lists, hc] using hnone)
        simpa [final, memberAfter, listAfter, hc] using hold
  · refine ⟨hown, hcallback, ?_, ?_, ?_⟩
    · simpa [World.issue, hu] using h.calm
    · simpa [World.issue, hu] using h.awaited
    · simpa [World.issue, hu] using h.agree

/-- The oldest write is accepted. -/
lemma Joined.accept {u c uid : Text} {w : World} (h : Joined u c w) {i : Issued}
    {rest : List Issued} (hp : w.pending uid = i :: rest) :
    Joined u c { ({ w with pending := Function.update w.pending uid rest }.apply i.write) with
      callbacks := Function.update w.callbacks uid (w.callbacks uid ++ i.onSuccess.toList) } := by
  have hi : i.Of uid := h.own uid i (by simp [hp])
  have hown := forall_update (a := uid) h.own rest fun j hj =>
    h.own uid j (by simp [hp, hj])
  have hcallback := forall_update (a := uid) h.callback _ (List.forall_mem_append.mpr
    ⟨h.callback uid, fun wr (hwr : wr ∈ i.onSuccess.toList) => by
      obtain ⟨c', -, feed, -, rfl⟩ := hi.waits wr (by simpa using hwr)
      exact ⟨c', feed, rfl⟩⟩)
  by_cases hu : u = uid
  · subst hu
    obtain ⟨hhead, hcalm⟩ := List.pairwise_cons.mp (hp ▸ h.calm)
    refine ⟨by simpa using hown, hcallback, by simpa using hcalm, ?_, ?_⟩
    · intro wr hwr hl
      simp only [Function.update_self, List.mem_append, Option.mem_toList] at hwr
      simp only [apply_member, apply_pending, Function.update_self]
      rcases hwr with hwr | hwr
      · obtain ⟨hsome, hrem⟩ := h.awaited wr hwr hl
        rw [hp] at hrem
        rw [hsome]
        exact ⟨memberAfter_true (hrem i (by simp)), fun j hj => hrem j (by simp [hj])⟩
      · obtain ⟨c', r, feed, hw, rfl⟩ := hi.waits wr hwr
        obtain rfl : c' = c := by simpa [lists] using hl
        refine ⟨by simp [hw, memberAfter], fun j hj => hhead j hj ?_⟩
        simp_all [Issued.awaits]
    · intro hnone
      simp only [Function.update_self, List.forall_mem_append, Option.mem_toList] at hnone
      have hold := h.agree hnone.1
      simp only [apply_member, apply_feedList, apply_pending, Function.update_self]
      rw [hp, final_cons, final_cons] at hold
      cases hon : i.onSuccess with
      | none => simpa [hon] using hold
      | some wr =>
        obtain ⟨c', r, feed, hw, rfl⟩ := hi.waits wr hon
        have hc : ¬c' = c := by simpa [lists] using hnone.2 _ hon
        simpa [hon, hw, memberAfter, listAfter, hc] using hold
  · refine ⟨by simpa using hown, hcallback, by simpa [hu] using h.calm, ?_, ?_⟩
    · simpa [hu, hi.member u c _ hu] using h.awaited
    · simpa [hu, hi.member u c _ hu, hi.list u c _ hu] using h.agree

/-- The oldest write is rejected. -/
lemma Joined.reject {u c uid : Text} {w : World} (h : Joined u c w) {i : Issued}
    {rest : List Issued} (hp : w.pending uid = i :: rest)
    (hg : uid = u → i.onSuccess = none →
      memberAfter u c (w.member c u).isSome i.write = (w.member c u).isSome)
    (hr : rejectable i.write) :
    Joined u c { w with pending := Function.update w.pending uid rest } := by
  have hown := forall_update (a := uid) h.own rest fun j hj =>
    h.own uid j (by simp [hp, hj])
  by_cases hu : u = uid
  · subst hu
    obtain ⟨-, hcalm⟩ := List.pairwise_cons.mp (hp ▸ h.calm)
    refine ⟨hown, h.callback, by simpa using hcalm, ?_, ?_⟩
    · intro wr hwr hl
      obtain ⟨hsome, hrem⟩ := h.awaited wr hwr hl
      exact ⟨hsome, fun j hj => hrem j (by simp_all)⟩
    · intro hnone
      have hold := h.agree hnone
      have hlist : listAfter u c (w.feedList u c).isSome i.write = (w.feedList u c).isSome := by
        cases hw : i.write <;> simp_all [rejectable, listAfter]
      rw [hp, final_cons, final_cons, hlist] at hold
      cases hon : i.onSuccess with
      | none => simpa [hon, hg rfl hon] using hold
      | some wr => simpa [hon] using hold
  · refine ⟨hown, h.callback, by simpa [hu] using h.calm, ?_, ?_⟩
    · simpa [hu] using h.awaited
    · simpa [hu] using h.agree

/-- One step. -/
lemma joined_step {u c : Text} {w w' : World} {e : Event} (h : Joined u c w)
    (hg : InStep u c w e) (hs : step w e = some w') : Joined u c w' := by
  cases e with
  | requestAccess user castId password feed =>
    cases hs
    exact h.requestAccess user castId password feed
  | handleLogin user =>
    cases hs
    exact h.handleLogin user
  | leaveWedding uid castId =>
    cases hs
    exact h.leaveWedding hg
  | settle uid accepted =>
    simp only [step] at hs
    cases hp : w.pending uid with
    | nil => simp [hp] at hs
    | cons i rest =>
      simp only [hp] at hs
      cases accepted with
      | true =>
        cases hs
        exact h.accept hp
      | false =>
        obtain ⟨hr, rfl⟩ : rejectable i.write = true ∧
            { w with pending := Function.update w.pending uid rest } = w' := by
          simpa using hs
        refine h.reject hp (fun hu => ?_) hr
        subst hu
        exact hg rfl i (by simp [hp])
  | callback uid =>
    simp only [step] at hs
    cases hcb : w.callbacks uid with
    | nil => simp [hcb] at hs
    | cons wr rest =>
      simp only [hcb, Option.some.injEq] at hs
      subst hs
      exact h.callback_step hcb

def joining (u c : Text) : Invariant step (InStep u c) where
  holds := Joined u c
  preserved := joined_step

/-- **The two sides agree.** Along such steps, whenever everything the user has issued has
settled, the cast is in the user's list exactly when the user has a record under the cast. -/
theorem agree_of_inStep (member : Text → Text → Option MemberRecord)
    (feedList : Text → Text → Option ChatInfo) (u c : Text) (es : List Event)
    (h₀ : Agree (World.init member feedList) u c)
    (h : Along step (InStep u c) (World.init member feedList) es) :
    Throughout step (fun w => Settled w u → Agree w u c) (World.init member feedList) es :=
  (joining u c).throughout (fun _ hw => hw.agree_of_settled) (joined_init h₀) h

def guest : User := ⟨txt ['u'], some (txt ['U']), none, true⟩

def wedding : ChatInfo := ⟨txt ['i'], txt ['h'], txt ['A'], 0, txt ['a'], none, .serverTimestamp⟩

/-- The guest joins, is rejected on a second try with another password, and leaves. -/
def guestRun : List Event :=
  [.requestAccess guest (txt ['a']) (txt ['p']) wedding, .settle (txt ['u']) true,
    .settle (txt ['u']) true, .requestAccess guest (txt ['a']) (txt ['q']) wedding,
    .settle (txt ['u']) false, .settle (txt ['u']) true, .leaveWedding (txt ['u']) (txt ['a']),
    .settle (txt ['u']) true, .settle (txt ['u']) true, .settle (txt ['u']) true]

def empty : World := World.init (fun _ _ => none) fun _ _ => none

theorem agree_of_inStep_guest :
    (run step empty guestRun).isSome ∧
      Throughout step (fun w => Settled w (txt ['u']) → Agree w (txt ['u']) (txt ['a'])) empty
        guestRun :=
  ⟨by decide, agree_of_inStep (fun _ _ => none) (fun _ _ => none) (txt ['u']) (txt ['a']) guestRun
    (by decide) (by decide)⟩

/-- **A rejected guest keeps the cast.** The password is wrong, and `requestAccess` has already
issued the entry of the list. -/
theorem not_always_agree :
    ¬∀ (member : Text → Text → Option MemberRecord) (feedList : Text → Text → Option ChatInfo)
      (u c : Text) (es : List Event), Agree (World.init member feedList) u c →
      Throughout step (fun w => Settled w u → Agree w u c) (World.init member feedList) es := by
  intro h
  have hrun := h (fun _ _ => none) (fun _ _ => none) (txt ['u']) (txt ['a'])
    [.requestAccess guest (txt ['a']) (txt ['q']) wedding, .settle (txt ['u']) false,
      .settle (txt ['u']) true] (by decide)
  revert hrun
  decide

end Wedcast.Membership
