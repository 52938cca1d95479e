import SimpleChat.Format
import SimpleChat.Lib.Keyed
import SimpleChat.FilesTransfer
import SimpleChat.Channels
import SimpleChat.SendFile
import SimpleChat.Lib.Json
import SimpleChat.WebProtocol
import SimpleChat.Lib.JsonText
import SimpleChat.QwebFiles
import SimpleChat.FinishReports
import SimpleChat.Downloads
import SimpleChat.Lib.Sql
import SimpleChat.SqliteOp
import SimpleChat.Codec
import SimpleChat.Survival
import SimpleChat.Leftovers
import SimpleChat.History
import SimpleChat.Reading
import SimpleChat.ChatWindow
import SimpleChat.Delivery
import SimpleChat.FriendRequests
import SimpleChat.Substitution
import SimpleChat.FormatInt
import SimpleChat.Statements
import SimpleChat.FriendInfo
import SimpleChat.CacheReplay
import SimpleChat.Progress
import SimpleChat.FilesLog
import SimpleChat.UploadFlow
import SimpleChat.IconTransfer
import SimpleChat.Logins
import SimpleChat.FriendTables
import SimpleChat.SendLoop
import SimpleChat.SendQueue
import SimpleChat.FilesInfo
import SimpleChat.Lib.QString
import SimpleChat.WrapText
import SimpleChat.MovePos
import SimpleChat.PersonInfo
import SimpleChat.FriendPanel
import SimpleChat.FriendRegistry
import SimpleChat.Receipts
import SimpleChat.Escapes
import SimpleChat.RowClass
import SimpleChat.Acknowledged
import SimpleChat.ChatSession
import SimpleChat.SqlRefinement
import SimpleChat.FriendList
import SimpleChat.ChatList
import SimpleChat.Conversation
import SimpleChat.SqlExchange
import SimpleChat.Lib.KeyMap
import SimpleChat.Records
import SimpleChat.StoredText
import SimpleChat.Uploads
import SimpleChat.Selection
import SimpleChat.ListRefinement
import SimpleChat.ChatLayout
import SimpleChat.FileSwap
