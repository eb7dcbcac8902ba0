import LeYiDai.Lib.Base64
import LeYiDai.Lib.Delimiter
import LeYiDai.Lib.Delivery
import LeYiDai.Lib.Descent
import LeYiDai.Lib.Machine
import LeYiDai.Lib.MethodTable
import LeYiDai.Lib.Pending
import LeYiDai.Lib.Removal
import LeYiDai.Lib.Rounding
import LeYiDai.Foundation.Values
import LeYiDai.Foundation.Numerals
import LeYiDai.Foundation.TextField
import LeYiDai.Foundation.Encoding
import LeYiDai.Foundation.InputLimiters
import LeYiDai.Category.CFSwzzling
import LeYiDai.Category.NSArrayBeyond
import LeYiDai.Category.SwzzlingLocality
import LeYiDai.Category.UIButtonTouch
import LeYiDai.Category.TouchPace
import LeYiDai.Login.LoginModel
import LeYiDai.Login.LoginRestart
import LeYiDai.Login.CodeButton
import LeYiDai.Login.LoginViewController
import LeYiDai.Util.RequestAPI
import LeYiDai.Util.Session
import LeYiDai.Util.FailureMessage
import LeYiDai.AFNetworking.BodyPart
import LeYiDai.AFNetworking.BodyStream
import LeYiDai.AFNetworking.PercentEscape
import LeYiDai.AFNetworking.QueryString
import LeYiDai.AFNetworking.FormData
import LeYiDai.AFNetworking.FormServer
import LeYiDai.AFNetworking.Upload
import LeYiDai.AFNetworking.SessionManager
import LeYiDai.AFNetworking.TaskSwizzling
import LeYiDai.AFNetworking.TaskNotifications
import LeYiDai.PubView.KLTNavigationController
import LeYiDai.Util.YSSModelDialog
import LeYiDai.Util.CurrentViewController
import LeYiDai.Self.MyBankViewController
import LeYiDai.Self.FeedBackViewController
import LeYiDai.Self.FeedBackUpload
import LeYiDai.Self.PhoneBookModel
import LeYiDai.Main.MainViewController
import LeYiDai.Main.HomeMemory
import LeYiDai.Self.SelfViewController
import LeYiDai.Main.LoanViewController
import LeYiDai.Main.LoanStep
import LeYiDai.Main.LoanTerms
import LeYiDai.Main.LoanSafety
import LeYiDai.Main.LoanPlan
import LeYiDai.Main.RepaymentViewController
import LeYiDai.Main.RepaymentStep
import LeYiDai.Main.RepaymentCharge
import LeYiDai.Main.RepaymentRows
import LeYiDai.Main.RepaymentSafety
import LeYiDai.Main.DoubleRequest
import LeYiDai.Main.EvaluationRouting
import LeYiDai.Main.BankAuthenViewController
import LeYiDai.Main.BankForm
import LeYiDai.Main.OperatorViewController
import LeYiDai.Main.AuthenticationViewController
import LeYiDai.Main.FaceAuthenViewController
import LeYiDai.Main.CodeCountdown
import LeYiDai.Main.ApplicationForm
import LeYiDai.Record.RecordViewController
import LeYiDai.Record.LoanDetialViewController
