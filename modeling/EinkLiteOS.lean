import EinkLiteOS.User.CrcDetection
import EinkLiteOS.User.HandOver
import EinkLiteOS.User.ImageOrder
import EinkLiteOS.User.ImagePath
import EinkLiteOS.User.ModeSwitch
import EinkLiteOS.User.PanelPower
import EinkLiteOS.User.PanelSharing
import EinkLiteOS.User.ReplyLines
import EinkLiteOS.User.Resync
import EinkLiteOS.User.ThreadEink
import EinkLiteOS.Device.LinkState
import EinkLiteOS.Device.SendCmd
import EinkLiteOS.Tools.CArrayText
import EinkLiteOS.Tools.Dither
import EinkLiteOS.Tools.FrameRoundTrip
import EinkLiteOS.Tools.PixelLayout
import EinkLiteOS.Tools.PictureShown
import EinkLiteOS.Kernel.SystemRuns
