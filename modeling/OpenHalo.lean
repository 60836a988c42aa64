import OpenHalo.Net.OutputQueue
import OpenHalo.AutoIncrement
import OpenHalo.PreparedLiteral
import OpenHalo.Session.DeferredCommit
import OpenHalo.Session.ResetConnection
import OpenHalo.Session.IgnoredErrors
import OpenHalo.Session.AutoRollback
import OpenHalo.Logon.QuoteIdentifier
import OpenHalo.Variables.UserVar
import OpenHalo.Variables.ReadBack
import OpenHalo.UuidShort
import OpenHalo.Update.TargetList
import OpenHalo.Update.MultiTable
import OpenHalo.ObjectNames
import OpenHalo.TextEquality
import OpenHalo.TimeArgs
import OpenHalo.Session.InitDb
import OpenHalo.Parser.Having
import OpenHalo.Parser.DuplicateKey
import OpenHalo.Rows.HexBinary
import OpenHalo.Temporal.Results
import OpenHalo.Temporal.Params
import OpenHalo.Rows.ScratchBound
import OpenHalo.Session.UseTrack
import OpenHalo.Rows.ResultSet
import OpenHalo.ExecuteTokens
import OpenHalo.Net.Truncated
import OpenHalo.Session.LeadingBlanks
import OpenHalo.Logon.Handshake320
import OpenHalo.Logon.PasswordEquation
import OpenHalo.Variables.OptimizerSwitch
import OpenHalo.Temporal.TimeGrammar
import OpenHalo.Update.CteUpdate
import OpenHalo.Temporal.NumberTime
import OpenHalo.Temporal.TimestampDiff
import OpenHalo.Temporal.TemporalNumeric
import OpenHalo.Variables.UserVarBits
import OpenHalo.Strings.SubstringIndex
