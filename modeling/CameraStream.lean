import CameraStream.Lib.SingleFlight
import CameraStream.Client.CaptureStreams
import CameraStream.Client.FrameFlow
import CameraStream.Client.WireFormat
import CameraStream.Client.AckMatching
import CameraStream.Client.ConfigSecrecy
import CameraStream.Link.RejectedCamera
import CameraStream.Link.JpegBoundary
import CameraStream.Server.GatewaySafety
import CameraStream.Server.FrameAccounting
import CameraStream.Server.ViewerPicture
import CameraStream.Server.CameraIsolation
import CameraStream.Server.ClockCorrection
import CameraStream.Server.MalformedLimits
import CameraStream.Client.CaptureBounds
import CameraStream.Client.ChildSignals
import CameraStream.Client.DiscardRecovery
import CameraStream.Vision.MotionIsolation
import CameraStream.Client.QueueStatements
import CameraStream.Link.AckProgress
import CameraStream.Link.BroadcastOrder
import CameraStream.Link.PictureProgress
import CameraStream.Link.ViewerScreen
import CameraStream.Link.MotionDelivery
import CameraStream.Link.StopAndWait
import CameraStream.Client.ChildLifetimes
import CameraStream.Client.Shutdown
import CameraStream.Client.InterruptibleSleep
import CameraStream.Client.Main
