import RestDispatch.Call
import RestDispatch.Decimal.Binary
import RestDispatch.Decimal.Digits
import RestDispatch.Decimal.Numeral
import RestDispatch.Decimal.Shortest
import RestDispatch.Declaration.Config
import RestDispatch.Declaration.Cursor
import RestDispatch.Declaration.Entry
import RestDispatch.Declaration.Expr
import RestDispatch.Declaration.ExprReader
import RestDispatch.Declaration.Fault
import RestDispatch.Declaration.Grammar
import RestDispatch.Declaration.Implementation
import RestDispatch.Declaration.Item
import RestDispatch.Declaration.ItemReader
import RestDispatch.Declaration.KeyPath
import RestDispatch.Declaration.Lexer
import RestDispatch.Declaration.Literal
import RestDispatch.Declaration.Meaning
import RestDispatch.Declaration.Printer
import RestDispatch.Declaration.Standard
import RestDispatch.Declaration.Token
import RestDispatch.Declaration.Ty
import RestDispatch.Declaration.TyReader
import RestDispatch.Dispatcher
import RestDispatch.Duration
import RestDispatch.Error
import RestDispatch.Http.Config
import RestDispatch.Http.Exchange
import RestDispatch.Http.Header
import RestDispatch.Http.Status
import RestDispatch.Http.Transport
import RestDispatch.Http.Wire
import RestDispatch.Interceptor
import RestDispatch.Json.Fault
import RestDispatch.Json.Printer
import RestDispatch.Json.Reader
import RestDispatch.Json.Skip
import RestDispatch.Json.Token
import RestDispatch.Json.Value
import RestDispatch.Log
import RestDispatch.Method
import RestDispatch.PathParams
import RestDispatch.Presence
import RestDispatch.Query
import RestDispatch.Response
import RestDispatch.Route
import RestDispatch.RouteName
import RestDispatch.Schema
import RestDispatch.Serial
import RestDispatch.Shape
import RestDispatch.Table
import RestDispatch.Text.Base64
import RestDispatch.Text.Blank
import RestDispatch.Text.Quoted
import RestDispatch.Text.Utf8
import RestDispatch.Transport
import RestDispatch.Url.Address
import RestDispatch.Url.Ascii
import RestDispatch.Url.Basic
import RestDispatch.Url.Domain
import RestDispatch.Url.Fault
import RestDispatch.Url.Form
import RestDispatch.Url.Host
import RestDispatch.Url.Parser
import RestDispatch.Url.Path
import RestDispatch.Url.Percent
import RestDispatch.Url.Punycode
import RestDispatch.UrlRule
import RestDispatch.Xml.Node
import RestDispatch.Xml.Reader
import RestDispatch.Xml.Tag
import RestDispatch.Xml.Text
import RestDispatch.Yaml.Lexer
import RestDispatch.Yaml.Node
import RestDispatch.Yaml.Plain
import RestDispatch.Yaml.Reader
import RestDispatch.Yaml.Scalar
import RestDispatch.Yaml.Stream
import RestDispatch.Yaml.Token
import RestDispatch.Proofs.Call.Assembly
import RestDispatch.Proofs.Call.Prepare
import RestDispatch.Proofs.Call.SharedName
import RestDispatch.Proofs.Decimal.Bounded
import RestDispatch.Proofs.Decimal.Widening
import RestDispatch.Proofs.Declaration.Acceptance
import RestDispatch.Proofs.Declaration.Arrangement
import RestDispatch.Proofs.Declaration.DeclaredDefaults
import RestDispatch.Proofs.Declaration.Defaults
import RestDispatch.Proofs.Declaration.Evaluation
import RestDispatch.Proofs.Declaration.ExprSteadiness
import RestDispatch.Proofs.Declaration.Extension
import RestDispatch.Proofs.Declaration.Gathering
import RestDispatch.Proofs.Declaration.Generation
import RestDispatch.Proofs.Declaration.Keys
import RestDispatch.Proofs.Declaration.Listing
import RestDispatch.Proofs.Declaration.Naming
import RestDispatch.Proofs.Declaration.Parentheses
import RestDispatch.Proofs.Declaration.PrintedTokens
import RestDispatch.Proofs.Declaration.Quotation
import RestDispatch.Proofs.Declaration.Reading
import RestDispatch.Proofs.Declaration.Standard
import RestDispatch.Proofs.Declaration.TySteadiness
import RestDispatch.Proofs.Declaration.Written
import RestDispatch.Proofs.Dispatcher.Interleaving
import RestDispatch.Proofs.Http.Admission
import RestDispatch.Proofs.Http.AppendedPath
import RestDispatch.Proofs.Http.BasePath
import RestDispatch.Proofs.Http.CallHeaders
import RestDispatch.Proofs.Http.DefaultHeaders
import RestDispatch.Proofs.Http.Echo
import RestDispatch.Proofs.Http.ErrorStage
import RestDispatch.Proofs.Http.LoadedBase
import RestDispatch.Proofs.Http.LoadedEnvironment
import RestDispatch.Proofs.Http.LoadedTimeout
import RestDispatch.Proofs.Http.Origin
import RestDispatch.Proofs.Http.Outcome
import RestDispatch.Proofs.Http.QueryPairs
import RestDispatch.Proofs.Http.Span
import RestDispatch.Proofs.Http.Stages
import RestDispatch.Proofs.Http.TimeoutReport
import RestDispatch.Proofs.Interceptor.Chain
import RestDispatch.Proofs.Json.Numbers
import RestDispatch.Proofs.Json.RoundTrip
import RestDispatch.Proofs.Json.Strings
import RestDispatch.Proofs.Query.Flatten
import RestDispatch.Proofs.Query.Scalars
import RestDispatch.Proofs.Query.Supplied
import RestDispatch.Proofs.Response.Rejection
import RestDispatch.Proofs.Response.TextBody
import RestDispatch.Proofs.Schema.Construction
import RestDispatch.Proofs.Schema.Introspection
import RestDispatch.Proofs.Schema.Registration
import RestDispatch.Proofs.Serial.JsonForm
import RestDispatch.Proofs.Text.ByteOrder
import RestDispatch.Proofs.Text.Fault
import RestDispatch.Proofs.Text.Sequence
import RestDispatch.Proofs.Text.Utf8
import RestDispatch.Proofs.Url.Directory
import RestDispatch.Proofs.Url.Form
import RestDispatch.Proofs.Url.Parsed
import RestDispatch.Proofs.Url.Percent
import RestDispatch.Proofs.Url.Reference
