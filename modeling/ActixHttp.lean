import ActixHttp.Text.Utf8
import ActixHttp.Message.Basic
import ActixHttp.Message.Negotiate
import ActixHttp.Message.Cookies
import ActixHttp.Lines.Readlines
import ActixHttp.Lines.Invariant
import ActixHttp.Lines.Termination
import ActixHttp.Lines.Split
import ActixHttp.Lines.Aligned
import ActixHttp.Lines.Conserve
import ActixHttp.Lines.Schedule
import ActixHttp.Lines.Limit
import ActixHttp.Body.Fold
import ActixHttp.Body.MessageBody
import ActixHttp.Body.UrlEncoded
