import ParamQuery.Config.File
import ParamQuery.Endpoint
import ParamQuery.Store.Literal
import ParamQuery.Store.Write
import ParamQuery.Proofs.Answer
import ParamQuery.Proofs.CanonicalForm
import ParamQuery.Proofs.CanonicalName
import ParamQuery.Proofs.Collect
import ParamQuery.Proofs.Column
import ParamQuery.Proofs.Condition
import ParamQuery.Proofs.ConfigFile
import ParamQuery.Proofs.Containment
import ParamQuery.Proofs.Entity
import ParamQuery.Proofs.FieldLists
import ParamQuery.Proofs.FieldTokens
import ParamQuery.Proofs.Join
import ParamQuery.Proofs.KeyText
import ParamQuery.Proofs.Letters
import ParamQuery.Proofs.Pieces
import ParamQuery.Proofs.Projection
import ParamQuery.Proofs.Question
import ParamQuery.Proofs.Result
import ParamQuery.Proofs.RowOrder
import ParamQuery.Proofs.SameRows
import ParamQuery.Proofs.Selection
import ParamQuery.Proofs.WholeNumber
import ParamQuery.Proofs.Words
import ParamQuery.Proofs.Calendar.Dates
import ParamQuery.Proofs.Calendar.Texts
import ParamQuery.Proofs.Value.Instants
import ParamQuery.Proofs.Filter.Conditions
import ParamQuery.Proofs.Filter.Grammar
import ParamQuery.Proofs.Filter.Inserts
import ParamQuery.Proofs.Filter.Spelling
import ParamQuery.Proofs.Read.Columns
import ParamQuery.Proofs.Read.Conversion
import ParamQuery.Proofs.Read.Features
import ParamQuery.Proofs.Read.Nesting
import ParamQuery.Proofs.Read.Numbers
import ParamQuery.Proofs.Read.Outcome
import ParamQuery.Proofs.Read.Pages
import ParamQuery.Proofs.Read.Scope
import ParamQuery.Proofs.Read.Search
import ParamQuery.Proofs.Read.Shape
import ParamQuery.Proofs.Read.Sharing
import ParamQuery.Proofs.Read.Total
import ParamQuery.Proofs.Request.Accepted
import ParamQuery.Proofs.Request.Checks
import ParamQuery.Proofs.Request.Fields
import ParamQuery.Proofs.Request.FirstFault
import ParamQuery.Proofs.Request.Names
import ParamQuery.Proofs.Request.Ordering
import ParamQuery.Proofs.Request.OrderText
import ParamQuery.Proofs.Request.Paging
import ParamQuery.Proofs.Request.Provenance
import ParamQuery.Proofs.Request.Recorded
import ParamQuery.Proofs.Request.Refusals
import ParamQuery.Proofs.Request.Spellings
import ParamQuery.Proofs.Request.Suppression
import ParamQuery.Proofs.Request.Values
import ParamQuery.Proofs.Statement.Noted
import ParamQuery.Proofs.Statement.Places
import ParamQuery.Proofs.Statement.Texts
import ParamQuery.Proofs.Toml.Document
import ParamQuery.Proofs.Toml.Strings
import ParamQuery.Proofs.Write.Assignment
import ParamQuery.Proofs.Write.Atomicity
import ParamQuery.Proofs.Write.Reread
import ParamQuery.Proofs.Write.Rows
import ParamQuery.Proofs.Number.Rounding
import ParamQuery.Proofs.Value.Nulls
import ParamQuery.Proofs.Number.FloatText
import ParamQuery.Proofs.JsonText
import ParamQuery.Proofs.Value.Forms
import ParamQuery.Proofs.Value.Keys
