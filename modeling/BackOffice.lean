import BackOffice.Gateway.Basic
import BackOffice.Preferences.Layout
import BackOffice.Proofs.Association.Saving
import BackOffice.Proofs.Screen.List.Flags
import BackOffice.Proofs.Screen.List.Shown
import BackOffice.Proofs.Screen.List.Answers
import BackOffice.Proofs.Screen.List.Returning
import BackOffice.Query.Document
import BackOffice.Record.Bundled
import BackOffice.Screen.Edit
import BackOffice.Proofs.Field.Order
import BackOffice.Proofs.Record.Fields
import BackOffice.Proofs.Query.Sorting
import BackOffice.Proofs.Repository
import BackOffice.Proofs.Query.Paging
import BackOffice.Proofs.Number.Numeral
import BackOffice.Proofs.Query.Params
import BackOffice.Proofs.Screen.Edit.Run
import BackOffice.Proofs.Screen.Edit.Saving
import BackOffice.Proofs.Screen.Edit.Conduct
import BackOffice.Proofs.Screen.Edit.Failing
import BackOffice.Proofs.Number.Decimal
import BackOffice.Proofs.Number.Reading
import BackOffice.Proofs.Number.Whole
import BackOffice.Proofs.Uuid
import BackOffice.Proofs.Instant
import BackOffice.Proofs.Field.Retyping
import BackOffice.Proofs.Query.Traveling
import BackOffice.Proofs.Query.Searching
import BackOffice.Proofs.Keyed.Run
import BackOffice.Proofs.Association.Reverting
import BackOffice.Proofs.Repository.Calls
import BackOffice.Proofs.Json.Text
import BackOffice.Proofs.Record.Document
import BackOffice.Proofs.Gateway.Paging
import BackOffice.Proofs.Gateway.Routing
import BackOffice.Proofs.Gateway.Storing
import BackOffice.Proofs.Preferences
import BackOffice.Proofs.Screen.Edit.Cancelling
import BackOffice.Proofs.Association.Resubmitting
import BackOffice.Proofs.Association.Reclicking
import BackOffice.Proofs.Screen.Edit.Noticing
import BackOffice.Proofs.Field.Linearity
import BackOffice.Proofs.Query.Accepting
import BackOffice.Proofs.Screen.Edit.Duplicating
import BackOffice.Proofs.Screen.Edit.Sharing
import BackOffice.Proofs.Query.Arity
import BackOffice.Proofs.Query.Slicing
import BackOffice.Proofs.Gateway.Bounding
import BackOffice.Proofs.Keyed.Places
import BackOffice.Proofs.Keyed.Following
import BackOffice.Proofs.Association.Sparing
import BackOffice.Proofs.Query.Ranging
import BackOffice.Proofs.Query.Translation
import BackOffice.Proofs.Query.Plain
import BackOffice.Proofs.Query.Absence
import BackOffice.Proofs.Settings.Layers
import BackOffice.Proofs.Rules
import BackOffice.Proofs.Field.Phone
