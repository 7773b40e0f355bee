import Mathlib.Tactic.SplitIfs
import Wedcast.CameraRoll
import Wedcast.Lib.Runs
import Wedcast.Text

/-!
The `Feed` screen: the uploads of a cast, the selection of photos, and their download.

Every snapshot of the uploads builds new item objects, and the selection and the list of running
downloads compare objects by identity. An item and its `image` are made together, so one
reference stands for the identity of both.
-/

namespace Wedcast.Feed

/-- The `image` of an item: the record of an upload. -/
structure Image where
  ref : ℕ
  uri : Text
  deriving DecidableEq

structure Item where
  key : Text
  image : Image
  deriving DecidableEq

/-- The uploads of a cast as the database sends them, by key. -/
structure Snapshot where
  children : List (Text × Text)
  keys : (children.map (·.1)).Nodup

/-- `data` of the snapshot callback: new objects, with references from `ref` on. -/
def items (ref : ℕ) : List (Text × Text) → List Item
  | [] => []
  | (key, uri) :: rest => ⟨key, ⟨ref, uri⟩⟩ :: items (ref + 1) rest

/-- What a download was asked for: one photo, or the selected ones. -/
inductive Download where
  | single (image : Image)
  | selected
  deriving DecidableEq

/-- A save under way. -/
structure Save where
  download : Download
  stage : SaveStage
  deriving DecidableEq

/-- The text of the spinner: "", "Downloading image..." or "Downloading n images...". -/
inductive OverlayText where
  | empty
  | image
  | images (n : ℕ)
  deriving DecidableEq

structure State where
  /-- Null before the first snapshot. -/
  images : Option (List Item)
  /-- Null only after `selectAll` without images; `render` throws on it. -/
  downloadList : Option (List Item)
  downloadingList : List Image
  downloadPermission : Option Permission
  showDownloadPermissionOverlay : Bool
  selectAll : Bool
  selectMode : Bool
  showOverlay : Bool
  overlayText : OverlayText
  /-- `Permissions.check` calls not answered yet. -/
  checks : List Download
  /-- `Permissions.request` calls not answered yet. -/
  requests : ℕ
  /-- Saves to the camera roll not finished yet. -/
  saves : List Save
  /-- The one-second timers. -/
  timers : List Download
  /-- The reference of the next object. -/
  nextRef : ℕ
  deriving DecidableEq

def mount : State where
  images := none
  downloadList := some []
  downloadingList := []
  downloadPermission := none
  showDownloadPermissionOverlay := false
  selectAll := true
  selectMode := false
  showOverlay := false
  overlayText := .empty
  checks := []
  requests := 0
  saves := []
  timers := []
  nextRef := 0

def State.rows (s : State) : List Item := s.images.getD []

def State.selected (s : State) : List Item := s.downloadList.getD []

/-- `self.state.downloadList.includes(item)`, which draws the checkmark of a row. -/
def State.isDownloadable (s : State) (item : Item) : Bool :=
  s.selected.any (·.image.ref = item.image.ref)

def removeDownload (e : Item) (s : State) : State :=
  { s with downloadList := s.downloadList.map (·.filter (·.image.ref ≠ e.image.ref)) }

def addDownload (e : Item) (s : State) : State :=
  if s.isDownloadable e then removeDownload e s
  else { s with downloadList := s.downloadList.map (· ++ [e]) }

def addIsDownloading (e : Image) (s : State) : State :=
  if s.downloadingList.any (·.ref = e.ref) then
    -- `removeDownload(e)` with an image object, which is no item of the list
    { s with
      showOverlay := true
      overlayText := .image
      downloadList := s.downloadList.map (·.filter fun _ => true) }
  else
    { s with
      showOverlay := true
      overlayText := .image
      downloadingList := s.downloadingList ++ [e] }

def saveSelected (platform : Platform) (s : State) : State :=
  { s with
    saves := s.saves ++ s.selected.map fun _ => ⟨.selected, platform.firstStage⟩
    timers := s.timers ++ [.selected] }

def toggleSelectMode (s : State) : State :=
  { s with selectMode := !s.selectMode, selectAll := true, downloadList := some [] }

def selectAll (s : State) : State :=
  { s with
    downloadList := if s.selectAll then s.images else some []
    selectAll := !s.selectAll }

/-- The answer of `Permissions.check`, for one photo or for the selected ones. -/
def onPermission (platform : Platform) (d : Download) (response : Permission) (s : State) : State :=
  let s := { s with downloadPermission := some response }
  match response with
  | .undetermined => { s with showDownloadPermissionOverlay := true }
  | .authorized =>
    match d with
    | .single image =>
      let s := addIsDownloading image s
      { s with saves := s.saves ++ [⟨.single image, platform.firstStage⟩] }
    | .selected =>
      if 0 < s.selected.length then
        saveSelected platform
          { s with showOverlay := true, overlayText := .images s.selected.length }
      else s
  | _ => s

/-- The step of the `i`-th save ends. `CameraRoll` comes after the fetch. The promise of
`saveToCameraRoll` is that of the first step, and only a single download has a callback on it; a
failure has no handler. -/
def onSaved (platform : Platform) (i : ℕ) (save : Save) (ok : Bool) (s : State) : State :=
  { s with
    saves :=
      if ok ∧ save.stage = .fetch then s.saves.set i { save with stage := .cameraRoll }
      else s.saves.eraseIdx i
    timers :=
      if ok ∧ save.stage = platform.firstStage ∧ save.download ≠ .selected then
        s.timers ++ [save.download]
      else s.timers }

/-- The callback of the one-second timer of `removeIsDownloading` or `saveSelected`. -/
def onTimer (d : Download) (s : State) : State :=
  let s := { s with showOverlay := false, overlayText := .empty }
  match d with
  | .single image =>
    { s with downloadingList := s.downloadingList.filter (·.ref ≠ image.ref) }
  | .selected => { s with downloadList := some [], selectAll := true }

inductive Event where
  | snapshot (data : Snapshot)
  /-- The circle of the `i`-th row is tapped. -/
  | addDownload (i : ℕ)
  | selectAll
  | toggleSelectMode
  /-- The download icon of the `i`-th row is tapped. -/
  | download (i : ℕ)
  /-- "Download n" is tapped. -/
  | downloadSelected
  /-- The `i`-th permission check is answered. -/
  | checked (i : ℕ) (response : Permission)
  /-- The step of the `i`-th save ends. -/
  | saved (i : ℕ) (ok : Bool)
  | timer (i : ℕ)
  /-- "OK!" and "Not now" on the overlay about the permission, and the answer to the request. -/
  | requestDownloadPermission
  | notNow
  | responded (response : Permission)

/-- What an event does to the screen. -/
def handle (platform : Platform) (s : State) : Event → Option State
  | .snapshot data =>
    some { s with
      images := some (items s.nextRef data.children)
      nextRef := s.nextRef + data.children.length }
  | .addDownload i => if s.selectMode then (s.rows[i]?).map (Feed.addDownload · s) else none
  | .selectAll => if s.selectMode then some (Feed.selectAll s) else none
  | .toggleSelectMode => some (Feed.toggleSelectMode s)
  | .download i =>
    (s.rows[i]?).map fun item => { s with checks := s.checks ++ [.single item.image] }
  | .downloadSelected =>
    if s.selectMode then some { s with checks := s.checks ++ [.selected] } else none
  | .checked i response =>
    (s.checks[i]?).map fun d =>
      onPermission platform d response { s with checks := s.checks.eraseIdx i }
  | .saved i ok => (s.saves[i]?).map fun save => onSaved platform i save ok s
  | .timer i =>
    (s.timers[i]?).map fun d => onTimer d { s with timers := s.timers.eraseIdx i }
  | .requestDownloadPermission =>
    if s.showDownloadPermissionOverlay then
      -- otherwise the system settings are opened
      some (if s.downloadPermission = some .undetermined then { s with requests := s.requests + 1 }
        else s)
    else none
  | .notNow =>
    if s.showDownloadPermissionOverlay then
      some { s with showDownloadPermissionOverlay := false }
    else none
  | .responded response =>
    if 0 < s.requests then
      some { s with
        requests := s.requests - 1
        downloadPermission := some response
        showDownloadPermissionOverlay := false }
    else none

/-- After `render` has thrown, the screen is gone. -/
def step (platform : Platform) (s : State) (e : Event) : Option State :=
  if s.downloadList = none then none else handle platform s e

lemma handle_of_step {platform : Platform} {s s' : State} {e : Event}
    (h : step platform s e = some s') : handle platform s e = some s' := by
  unfold step at h
  split_ifs at h
  exact h

/-! ### The objects of a snapshot -/

@[simp] lemma items_keys (n : ℕ) (data : List (Text × Text)) :
    (items n data).map (·.key) = data.map (·.1) := by
  induction data generalizing n with
  | nil => rfl
  | cons d rest ih => simp [items, ih]

lemma items_ref_bounds {n : ℕ} {data : List (Text × Text)} {i : Item} (h : i ∈ items n data) :
    n ≤ i.image.ref ∧ i.image.ref < n + data.length := by
  induction data generalizing n with
  | nil => simp [items] at h
  | cons d rest ih =>
    rcases List.mem_cons.mp h with rfl | h
    · simp
    · have := ih h
      simp only [List.length_cons]
      omega

lemma items_refs (n : ℕ) (data : List (Text × Text)) :
    ((items n data).map (·.image.ref)).Nodup := by
  induction data generalizing n with
  | nil => exact .nil
  | cons d rest ih =>
    refine List.nodup_cons.mpr ⟨fun h => ?_, ih (n + 1)⟩
    obtain ⟨i, hi, heq⟩ := List.mem_map.mp h
    have := (items_ref_bounds hi).1
    simp only at heq
    omega

end Wedcast.Feed
