/-
  CameraStream.Client.Types

  The value types of the camera client: `Config` (config.hpp), `Frame`
  (frame.hpp) and `FrameAck` (socket_io_client.hpp).  A `std::string` and a
  `std::vector<std::uint8_t>` are byte lists.
-/

import Mathlib.Data.List.Basic

namespace CameraStream.Client

/-- The bytes of a `std::string` or a `std::vector<std::uint8_t>`. -/
abbrev Bytes := List UInt8

/-- The bytes of an ASCII string literal. -/
def ascii (s : String) : Bytes := s.toList.map fun c => c.toNat.toUInt8

/-- The merged configuration of the client. -/
structure Config where
  serverUrl : Bytes
  token : Bytes
  cameraId : Bytes := ascii "raspberry-pi-1"
  width : Int := 1280
  height : Int := 720
  fps : Int := 10
  jpegQuality : Int := 80
  deriving DecidableEq

/-- One JPEG and the wall-clock reading taken when its capture completed. -/
structure Frame where
  timestampMs : Int := 0
  jpeg : Bytes := []
  deriving DecidableEq

/-- The decoded answer of the server to one frame. -/
structure FrameAck where
  accepted : Bool := false
  reason : Bytes := []
  deriving DecidableEq

end CameraStream.Client
