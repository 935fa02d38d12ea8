import MoCodes.Utils.SearchProgress
import MoCodes.Crypto.DesStandard
import MoCodes.Cps.Client.DmmComplete
import MoCodes.Cps.Client.Deliver
import MoCodes.Cps.Server.KeyAgree
import MoCodes.Cps.Server.Heartbeat
import MoCodes.Cps.Server.Agreement
import MoCodes.Cps.Server.Deadlock
import MoCodes.Cps.Server.Resync
import MoCodes.Crypto.DesRoundTrip
import MoCodes.Crypto.Rc4
import MoCodes.Crypto.Rc4File
import MoCodes.Cps.Server.FileMgrInit
import MoCodes.Crypto.Md5String
import MoCodes.Utils.IniRoundTrip
import MoCodes.Utils.ThreadPool.Progress
import MoCodes.Sort.SortsOrder
import MoCodes.MoCloud.Server.LogIn
import MoCodes.MoCloud.Server.AccessControl
import MoCodes.MoCloud.KeyAgree
import MoCodes.MoCloud.Client.UnitList
import MoCodes.MoCloud.Client.RecvData
import MoCodes.MoCloud.Client.CtrlChannel
import MoCodes.MoCloud.Client.Refresh
import MoCodes.MoCloud.Server.DataChannel
import MoCodes.MoCloud.Server.SendFile
import MoCodes.MoCloud.Server.Notify
import MoCodes.MoCloud.Download
import MoCodes.MoCloud.Isolation
import MoCodes.MoCloud.LogState
import MoCodes.MoCloud.DwldRequest
import MoCodes.MoCloud.Resume
import MoCodes.MoCloud.Client.DwldSlots
import MoCodes.MoCloud.Client.SlotSafety
import MoCodes.MoCloud.Server.Lifetime
import MoCodes.MoCloud.Server.Credentials
import MoCodes.MoCloud.Server.FileTable
import MoCodes.MoCloud.Server.Responses
import MoCodes.MoFaceRec.DisplayStore
import MoCodes.MoFaceRec.HandOver
import MoCodes.MoFaceRec.DbGuard
import MoCodes.MoFaceRec.WorkSock
import MoCodes.MoFaceRec.HttpBuffers
import MoCodes.CryptFileTool.CftProt
import MoCodes.CryptFileTool.CpServer
import MoCodes.CryptFileTool.CpRecv
import MoCodes.Crypto.DesKeys
import MoCodes.Crypto.Des3Cbc
import MoCodes.Utils.SundayReads
import MoCodes.Crypto.Base64Bounds
import MoCodes.Lib.Transfer
import MoCodes.Cps.CpsUtils
import MoCodes.Cps.Client.GetResp
import MoCodes.Cps.Client.Bounds
import MoCodes.Cps.Client.HeadResync
import MoCodes.Utils.IniComments
import MoCodes.Utils.IniBounds
import MoCodes.Crypto.Rc4InPlace
import MoCodes.Crypto.Base64Atomic
import MoCodes.Utils.ThreadPool.InitError
import MoCodes.Cps.Server.Shutdown
import MoCodes.MoCloud.Client.HeaderResync
import MoCodes.MoCloud.Client.DataBounds
import MoCodes.MoCloud.DwldOffsets
import MoCodes.MoCloud.Client.TaskLookup
import MoCodes.MoCloud.Client.StartDwld
import MoCodes.MoCloud.Client.DwldInfoInit
import MoCodes.MoCloud.Client.Filelist
import MoCodes.MoCloud.Client.FilelistBounds
import MoCodes.MoCloud.Client.LoginBuffers
import MoCodes.MoCloud.BodyRoundTrip
import MoCodes.MoCloud.ReqParsers
import MoCodes.MoCloud.Server.Farewell
import MoCodes.Lib.Descriptors
import MoCodes.MoCloud.Server.DwldHandles
import MoCodes.MoCloud.Server.LocalFilelist
import MoCodes.Lib.RingQueue
import MoCodes.CryptFileTool.ReqQueue
import MoCodes.CryptFileTool.CryptProgress
import MoCodes.MoFaceRec.CaptScan
import MoCodes.Lib.Largest
import MoCodes.MoFaceRec.DisplayWindow
import MoCodes.Lib.CopyVector
import MoCodes.MoFaceRec.FaceData
import MoCodes.Lib.Allocations
import MoCodes.MoFaceRec.FaceNaming
import MoCodes.Lib.Pattern
import MoCodes.MoFaceRec.Endpoints
import MoCodes.MoFaceRec.CaptureRequest
import MoCodes.Crypto.Rc4Vector
import MoCodes.Utils.PwdRead
import MoCodes.MoFaceRec.EventCopies
import MoCodes.Lib.PathTree
import MoCodes.Utils.SameFile
import MoCodes.Crypto.SeparateFiles
import MoCodes.MoFaceRec.SqlTable
import MoCodes.MoFaceRec.StrictEngine
import MoCodes.MoFaceRec.DbRecords
import MoCodes.Lib.PowerMod
import MoCodes.Rsa.Keys
import MoCodes.Rsa.Crypt
import MoCodes.Cps.Client.Lifecycle
import MoCodes.Lib.Machine
import MoCodes.Cps.Server.Readers
import MoCodes.Cps.Server.ReaderNodes
import MoCodes.Cps.Server.SharedReads
import MoCodes.MoCloud.Server.UserTable
import MoCodes.Logger.MoLogger
import MoCodes.CryptFileTool.CftRequest
import MoCodes.MoFaceRec.Startup
import MoCodes.MoCloud.Client.TaskUpdates
