import Mathlib.Init

/-!
# Where the pictures of a video service come from

`VideoSource` of `video_service.rs`, and the names of the services, which the server tells apart by their
prefix.
-/

namespace FontisRemote.Video

inductive VideoSource
  | monitor
  | camera
deriving DecidableEq, Repr

def VideoSource.serviceNamePrefix : VideoSource → String
  | .monitor => "monitor"
  | .camera => "camera"

def getServiceName (source : VideoSource) (idx : Nat) : String := source.serviceNamePrefix ++ toString idx

/-- `is_video_service_name` of the server. -/
def isVideoServiceName (name : String) : Bool :=
  name.startsWith VideoSource.monitor.serviceNamePrefix || name.startsWith VideoSource.camera.serviceNamePrefix

end FontisRemote.Video
