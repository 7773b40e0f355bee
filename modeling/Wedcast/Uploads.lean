import Wedcast.Lib.Outbox
import Wedcast.StoreRuns

/-!
The photos of a cast on several devices.

`Main` pushes the record of a photo. Every mounted `Feed` shows some snapshot of the uploads, which
may be an old one, and in select mode offers to delete the rows of its own user. The alert keeps
the key while snapshots go on, and the removal is sent when it is confirmed. The devices send their
writes in order; the database carries them out, or refuses them, among all other writes.
-/

namespace Wedcast.Uploads

open Runs Outbox Store
open CreateFeed (PathSegment)

/-- What a mounted `Feed` keeps for deleting photos. -/
structure Feed where
  currentUser : User
  /-- `state.images`, null as empty: the key and the record of each upload. -/
  images : List (Text × Upload)
  selectMode : Bool

structure Device where
  feed : Option Feed
  /-- The alerts of `deleteImage`, each with its key and the uid of the `Feed` that raised it. -/
  alerts : List (Text × Text)

structure World (ι : Type*) where
  device : ι → Device
  net : Net ι Text Upload
  db : Value
  /-- History: the removals that have been confirmed, as the alerts they come from. -/
  confirmed : List (Text × Text)

variable {ι : Type*} [DecidableEq ι]

/-- The write to the uploads of the cast. -/
def storeWrite (castId : Text) : Op Text Upload → StoreWrite
  | .add key comment => .upload castId key comment
  | .remove key => .removeUpload castId key

def World.setDevice (w : World ι) (j : ι) (d : Device) : World ι :=
  { w with device := Function.update w.device j d }

inductive Event (ι : Type*) where
  /-- `uploadImageAsync` of `Main` has got the size of the photo, and pushes. -/
  | push (j : ι) (key : Text) (user : User) (uri : Text) (width height : ℕ)
  | mountFeed (j : ι) (user : User)
  | unmountFeed (j : ι)
  | snapshot (j : ι) (data : List (Text × Upload))
  | toggleSelectMode (j : ι)
  /-- "Delete" of the `i`-th row is tapped. -/
  | deleteImage (j : ι) (i : ℕ)
  /-- "Delete" or "Cancel" of the `i`-th alert. -/
  | answer (j : ι) (i : ℕ) (delete : Bool)
  /-- The database carries out or refuses the oldest write of the device. -/
  | settle (j : ι) (accepted : Bool)
  /-- A write elsewhere. -/
  | other (w : IssuedWrite)

/-- The write is to a photo of the cast. -/
def touches (castId : Text) (w : StoreWrite) : Bool :=
  match w.node with
  | .upload c _ => c = castId
  | _ => false

def step (castId : Text) (w : World ι) : Event ι → Option (World ι)
  | .push j key user uri width height =>
    let comment := ⟨⟨user.displayName, user.uid, user.photoURL⟩, uri, width, height⟩
    if PathSegment key ∧ key ∉ w.net.added.map Prod.fst then
      some { w with net := w.net.add j key comment }
    else none
  | .mountFeed j user => some (w.setDevice j { w.device j with feed := some ⟨user, [], false⟩ })
  | .unmountFeed j => some (w.setDevice j { w.device j with feed := none })
  | .snapshot j data =>
    (w.device j).feed.bind fun s =>
      if ∀ x ∈ data, w.net.Seen j x.1 x.2 then
        some (w.setDevice j { w.device j with feed := some { s with images := data } })
      else none
  | .toggleSelectMode j =>
    (w.device j).feed.map fun s =>
      w.setDevice j { w.device j with feed := some { s with selectMode := !s.selectMode } }
  | .deleteImage j i =>
    (w.device j).feed.bind fun s => (s.images[i]?).bind fun (key, image) =>
      if s.selectMode ∧ image.user.uid = s.currentUser.uid then
        some (w.setDevice j
          { w.device j with alerts := (w.device j).alerts ++ [(key, s.currentUser.uid)] })
      else none
  | .answer j i delete =>
    ((w.device j).alerts[i]?).map fun (key, uid) =>
      let w := w.setDevice j { w.device j with alerts := (w.device j).alerts.eraseIdx i }
      if delete then
        { w with net := w.net.remove j key, confirmed := (key, uid) :: w.confirmed }
      else w
  | .settle j accepted =>
    match w.net.outbox j with
    | [] => none
    | op :: _ =>
      let w := { w with net := w.net.drop j }
      if accepted then
        some { w with
          net := w.net.carryOut op, db := w.db.apply (storeWrite castId op).change }
      else some w
  | .other write =>
    if touches castId write.write then none
    else some { w with db := w.db.apply write.write.change }

/-- A photo of the cast in the database. -/
def photo (castId key : Text) (db : Value) : Option Upload :=
  readUpload (db.child (Node.upload castId key).path)

/-- Devices without a `Feed` over a database with the given photos. -/
def World.init (castId : Text) (db : Value) (stored : List (Text × Upload)) : World ι where
  device _ := ⟨none, []⟩
  net := .init (fun key => photo castId key db) stored
  db := db
  confirmed := []

/-- The database holds the photos that have been stored, less those whose removal their own
uploader has confirmed, and nobody else confirms one. -/
structure Faithful (castId : Text) (w : World ι) : Prop where
  photo_iff : ∀ key image, photo castId key w.db = some image ↔
    (key, image) ∈ w.net.stored ∧ key ∉ w.net.removed
  removed : ∀ key ∈ w.net.removed, ∃ image, (key, image) ∈ w.net.added ∧
    (key, image.user.uid) ∈ w.confirmed
  confirmed : ∀ x ∈ w.confirmed, ∃ image, (x.1, image) ∈ w.net.added ∧ image.user.uid = x.2

/-- The device knows the photos its `Feed` shows and its alerts ask about. -/
structure Informed (net : Net ι Text Upload) (j : ι) (d : Device) : Prop where
  rows : ∀ s ∈ d.feed, ∀ x ∈ s.images, net.Known j x.1 x.2
  alerts : ∀ x ∈ d.alerts, ∃ image, net.Known j x.1 image ∧ image.user.uid = x.2

structure Album (castId : Text) (w : World ι) : Prop where
  net : w.net.Consistent
  informed : ∀ j, Informed w.net j (w.device j)
  confirmed : ∀ x ∈ w.confirmed, ∃ image, (x.1, image) ∈ w.net.added ∧ image.user.uid = x.2
  sent : ∀ j key, .remove key ∈ w.net.outbox j → ∃ uid, (key, uid) ∈ w.confirmed
  removed : ∀ key ∈ w.net.removed, ∃ uid, (key, uid) ∈ w.confirmed
  keys : ∀ x ∈ w.net.added, PathSegment x.1
  photo : ∀ key, photo castId key w.db = w.net.store key

variable {castId : Text} {w : World ι}

omit [DecidableEq ι] in
lemma Album.faithful (h : Album castId w) : Faithful castId w where
  photo_iff key image := by
    rw [h.photo]
    exact h.net.store_iff key image
  removed key hkey := by
    obtain ⟨uid, huid⟩ := h.removed key hkey
    obtain ⟨image, hadded, rfl⟩ := h.confirmed _ huid
    exact ⟨image, hadded, huid⟩
  confirmed := h.confirmed

omit [DecidableEq ι] in
lemma album_init {db : Value} {stored : List (Text × Upload)}
    (hdb : ∀ key image, Uploads.photo castId key db = some image ↔ (key, image) ∈ stored)
    (hkeys : ∀ x ∈ stored, PathSegment x.1) : Album castId (World.init (ι := ι) castId db stored) where
  net := Net.consistent_init hdb
  informed _ := ⟨by simp [World.init], by simp [World.init]⟩
  confirmed := by simp [World.init]
  sent := by simp [World.init, Net.init]
  removed := by simp [World.init, Net.init]
  keys := hkeys
  photo _ := rfl

/-! ### The screens -/

omit [DecidableEq ι] in
lemma Informed.mono {net net' : Net ι Text Upload} {j : ι} {d : Device} (h : Informed net j d)
    (hknown : ∀ key image, net.Known j key image → net'.Known j key image) : Informed net' j d where
  rows s hs x hx := hknown x.1 x.2 (h.rows s hs x hx)
  alerts x hx := by
    obtain ⟨image, hk, huid⟩ := h.alerts x hx
    exact ⟨image, hknown x.1 image hk, huid⟩

lemma Album.setDevice (h : Album castId w) {j : ι} {d : Device} (hd : Informed w.net j d) :
    Album castId (w.setDevice j d) :=
  { h with
    informed := by
      intro k
      by_cases hk : k = j
      · subst hk
        simpa [World.setDevice] using hd
      · simpa [World.setDevice, hk] using h.informed k }

lemma Album.push (h : Album castId w) (j : ι) {key : Text} (hkey : PathSegment key)
    (hfresh : key ∉ w.net.added.map Prod.fst) (comment : Upload) :
    Album castId { w with net := w.net.add j key comment } := by
  have hfresh : ∀ image, (key, image) ∉ w.net.added := fun image hmem =>
    hfresh (List.mem_map_of_mem (f := Prod.fst) hmem)
  refine { h with net := h.net.add hfresh, informed := ?_, confirmed := ?_, sent := ?_, keys := ?_ }
  · exact fun k => (h.informed k).mono fun _ _ hk => hk.add hfresh comment
  · intro x hx
    obtain ⟨image, hadded, huid⟩ := h.confirmed x hx
    exact ⟨image, List.mem_cons_of_mem _ hadded, huid⟩
  · intro k key' hk
    exact h.sent k key' (by simpa [Net.mem_outbox_add] using hk)
  · exact List.forall_mem_cons.mpr ⟨hkey, h.keys⟩

/-- A removal is confirmed. -/
lemma Album.confirm (h : Album castId w) {j : ι} {key uid : Text} {image : Upload}
    (hknown : w.net.Known j key image) (huid : image.user.uid = uid) :
    Album castId { w with
      net := w.net.remove j key, confirmed := (key, uid) :: w.confirmed } := by
  refine { h with
    net := h.net.remove hknown, informed := ?_, confirmed := ?_, sent := ?_, removed := ?_ }
  · exact fun k => (h.informed k).mono fun _ _ hk => hk.remove
  · exact List.forall_mem_cons.mpr ⟨⟨image, hknown.1, huid⟩, h.confirmed⟩
  · intro k key' hk
    rcases Net.mem_outbox_remove.mp hk with hold | ⟨-, hnew⟩
    · obtain ⟨uid', hmem⟩ := h.sent k key' hold
      exact ⟨uid', List.mem_cons_of_mem _ hmem⟩
    · obtain rfl := Op.remove.inj hnew
      exact ⟨uid, List.mem_cons_self⟩
  · intro key' hk
    obtain ⟨uid', hmem⟩ := h.removed key' hk
    exact ⟨uid', List.mem_cons_of_mem _ hmem⟩

lemma Album.drop (h : Album castId w) (j : ι) : Album castId { w with net := w.net.drop j } :=
  { h with
    net := h.net.drop j
    informed := fun k => (h.informed k).mono fun _ _ hk => hk.drop
    sent := fun k key hk => h.sent k key (Net.mem_outbox_drop hk) }

/-! ### The database -/

lemma clean_storeWrite (hcast : PathSegment castId) {op : Op Text Upload}
    (hkey : PathSegment op.key) : (storeWrite castId op).Clean := by
  have hparts : ∀ part ∈ [Key.feeds, Key.feedNew, castId, Key.uploads, op.key],
      PathSegment part := by
    simp only [List.forall_mem_cons]
    exact ⟨by decide, by decide, hcast, by decide, hkey, by simp⟩
  cases op <;> exact hparts

/-- The photos after a write to one of them. -/
lemma photo_apply (hcast : PathSegment castId) {op : Op Text Upload} (hkey : PathSegment op.key)
    (db : Value) (key : Text) : photo castId key (db.apply (storeWrite castId op).change) =
      if op.key = key then match op with
        | .add _ comment => some comment
        | .remove _ => none
      else photo castId key db := by
  rw [photo, (clean_storeWrite hcast hkey).child_apply]
  cases op with
  | add key' comment =>
    by_cases hk : key' = key
    · simp [storeWrite, StoreWrite.node, StoreWrite.below, StoreWrite.value, Op.key, hk,
        readUpload_upload]
    · simp [storeWrite, StoreWrite.node, Op.key, hk, photo]
  | remove key' =>
    by_cases hk : key' = key
    · simp [storeWrite, StoreWrite.node, StoreWrite.below, StoreWrite.value, Op.key, hk]
      rfl
    · simp [storeWrite, StoreWrite.node, Op.key, hk, photo]

/-- The oldest write of a device is carried out. -/
lemma Album.carryOut (h : Album castId w) (hcast : PathSegment castId) {j : ι} {op : Op Text Upload}
    {rest : List (Op Text Upload)} (hout : w.net.outbox j = op :: rest) :
    Album castId { w with
      net := (w.net.drop j).carryOut op, db := w.db.apply (storeWrite castId op).change } := by
  have hdrop := h.drop j
  have hmem : op ∈ w.net.outbox j := by simp [hout]
  obtain ⟨image, hadded⟩ := h.net.added hmem
  have hkey : PathSegment op.key := h.keys _ hadded
  have hsent : ∀ key, op = .remove key → ∃ uid, (key, uid) ∈ w.confirmed := by
    rintro key rfl
    exact h.sent j key (by simp [hout])
  have hinformed : ∀ k, Informed ((w.net.drop j).carryOut op) k (w.device k) := fun k =>
    (hdrop.informed k).mono fun _ _ hk => hk.carryOut op
  have hphoto : ∀ key, Uploads.photo castId key (w.db.apply (storeWrite castId op).change) =
      ((w.net.drop j).carryOut op).store key := by
    intro key
    rw [photo_apply hcast hkey, h.photo]
    cases op <;> simp [Net.carryOut, Net.drop, Op.key, Function.update_apply, eq_comm]
  cases op with
  | add key comment =>
    exact { hdrop with net := h.net.carryOut hout, informed := hinformed, photo := hphoto }
  | remove key =>
    refine { hdrop with
      net := h.net.carryOut hout, informed := hinformed, photo := hphoto, removed := ?_ }
    exact List.forall_mem_cons.mpr ⟨hsent key rfl, h.removed⟩

/-- A write elsewhere changes no photo of the cast. -/
lemma photo_other {write : IssuedWrite} (h : touches castId write.write = false) (db : Value)
    (key : Text) : photo castId key (db.apply write.write.change) = photo castId key db := by
  rw [photo, write.clean.child_apply, if_neg, photo]
  intro hn
  simp [touches, hn] at h

/-! ### Runs -/

lemma album_step (hcast : PathSegment castId) {w' : World ι} {e : Event ι} (h : Album castId w)
    (hs : step castId w e = some w') : Album castId w' := by
  cases e with
  | push j key user uri width height =>
    simp only [step] at hs
    split_ifs at hs with hg
    cases hs
    exact h.push j hg.1 hg.2 _
  | mountFeed j user =>
    cases hs
    exact h.setDevice ⟨by simp, (h.informed j).alerts⟩
  | unmountFeed j =>
    cases hs
    exact h.setDevice ⟨by simp, (h.informed j).alerts⟩
  | snapshot j data =>
    obtain ⟨s, -, hs⟩ := Option.bind_eq_some_iff.mp hs
    split_ifs at hs with hseen
    cases hs
    refine h.setDevice ⟨?_, (h.informed j).alerts⟩
    simpa using fun key image hx => h.net.known (hseen (key, image) hx)
  | toggleSelectMode j =>
    obtain ⟨s, hfeed, rfl⟩ := Option.map_eq_some_iff.mp hs
    refine h.setDevice ⟨?_, (h.informed j).alerts⟩
    simpa using (h.informed j).rows s hfeed
  | deleteImage j i =>
    obtain ⟨s, hfeed, hs⟩ := Option.bind_eq_some_iff.mp hs
    obtain ⟨⟨key, image⟩, hrow, hs⟩ := Option.bind_eq_some_iff.mp hs
    dsimp only at hs
    split_ifs at hs with hg
    cases hs
    have hknown := (h.informed j).rows s hfeed (key, image) (List.mem_of_getElem? hrow)
    refine h.setDevice ⟨(h.informed j).rows, List.forall_mem_append.mpr
      ⟨(h.informed j).alerts, List.forall_mem_singleton.mpr ⟨image, hknown, hg.2⟩⟩⟩
  | answer j i delete =>
    obtain ⟨⟨key, uid⟩, halert, rfl⟩ := Option.map_eq_some_iff.mp hs
    obtain ⟨image, hknown, huid⟩ := (h.informed j).alerts _ (List.mem_of_getElem? halert)
    have hclosed := h.setDevice (j := j)
      (d := { w.device j with alerts := (w.device j).alerts.eraseIdx i })
      ⟨(h.informed j).rows, fun x hx => (h.informed j).alerts x (List.mem_of_mem_eraseIdx hx)⟩
    cases delete with
    | true => exact hclosed.confirm hknown huid
    | false => exact hclosed
  | settle j accepted =>
    simp only [step] at hs
    cases hout : w.net.outbox j with
    | nil => simp [hout] at hs
    | cons op rest =>
      simp only [hout] at hs
      cases accepted with
      | true =>
        cases hs
        exact h.carryOut hcast hout
      | false =>
        cases hs
        exact h.drop j
  | other write =>
    simp only [step] at hs
    split_ifs at hs with hg
    cases hs
    exact { h with
      photo := fun key => (photo_other (by simpa using hg) w.db key).trans (h.photo key) }

def keeping (hcast : PathSegment castId) : Invariant (step (ι := ι) castId) fun _ _ => True where
  holds := Album castId
  preserved h _ hs := album_step hcast h hs

/-- **No photo is lost.** In every state that any number of devices reach, a photo that has been
stored is in the database, unless its own uploader has confirmed the removal and the database has
carried it out; nothing else is there, and only the uploader of a photo ever confirms. -/
theorem faithful_run (hcast : PathSegment castId) {db : Value} {stored : List (Text × Upload)}
    (hdb : ∀ key image, photo castId key db = some image ↔ (key, image) ∈ stored)
    (hkeys : ∀ x ∈ stored, PathSegment x.1) (es : List (Event ι)) :
    Throughout (step castId) (Faithful castId) (World.init castId db stored) es :=
  (keeping hcast).throughout (fun _ hw => hw.faithful) (album_init hdb hkeys) (along_true _ es)

/-- A guest uploads a photo, sees it in the feed and deletes it. -/
def guestRun : List (Event Unit) :=
  [.push () (txt ['k']) ⟨txt ['u'], none, none, false⟩ (txt ['x']) 4 3, .settle () true,
    .mountFeed () ⟨txt ['u'], none, none, false⟩,
    .snapshot () [(txt ['k'], ⟨⟨none, txt ['u'], none⟩, txt ['x'], 4, 3⟩)], .toggleSelectMode (),
    .deleteImage () 0, .answer () 0 true, .settle () true]

theorem faithful_run_guest :
    (run (step (txt ['a'])) (World.init (txt ['a']) .null []) guestRun).isSome ∧
      Throughout (step (txt ['a'])) (Faithful (txt ['a'])) (World.init (txt ['a']) .null [])
        guestRun := by
  have hnone : ∀ key, photo (txt ['a']) key .null = none := fun _ => rfl
  exact ⟨by decide, faithful_run (by decide) (by simp [hnone]) (by simp) guestRun⟩

end Wedcast.Uploads
