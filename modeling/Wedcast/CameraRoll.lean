/-!
Saving a photo to the camera roll.

`Feed` and `CameraComponent` have a `saveToCameraRoll` each. On iOS both wait for `CameraRoll`. On
Android a photo is fetched first, and nothing waits for `CameraRoll` after that.
-/

namespace Wedcast

/-- What `Permissions` responds. -/
inductive Permission where
  | authorized | denied | restricted | undetermined
  deriving DecidableEq

/-- `Platform.OS` -/
inductive Platform where
  | ios | android
  deriving DecidableEq

/-- The asynchronous steps of a save: `RNFetchBlob.fetch` and `CameraRoll.saveToCameraRoll`. -/
inductive SaveStage where
  | fetch | cameraRoll
  deriving DecidableEq

/-- The step a save begins with. -/
def Platform.firstStage : Platform → SaveStage
  | .ios => .cameraRoll
  | .android => .fetch

end Wedcast
