import DocComment.Document.Json
import DocComment.Html.Page
import DocComment.Json.Reader
import DocComment.Parse
import DocComment.Proofs.DraftFrame
import DocComment.Proofs.PatternReads
import DocComment.Proofs.Phases
import DocComment.Proofs.ActionPhases
import DocComment.Proofs.Coherence
import DocComment.Proofs.LinePatterns
import DocComment.Proofs.Replays
import DocComment.Proofs.Totality
import DocComment.Proofs.Placement
import DocComment.Proofs.Pieces
import DocComment.Proofs.Blocks
import DocComment.Proofs.ProseGrammar
import DocComment.Proofs.ProseTags
import DocComment.Proofs.Alike
import DocComment.Proofs.Placeholders
import DocComment.Proofs.Twins
import DocComment.Proofs.Brackets
import DocComment.Proofs.PageMarkup
import DocComment.Proofs.Captures
import DocComment.Proofs.CommentForms
import DocComment.Proofs.MirroredRules
import DocComment.Proofs.CommentEquivalence
import DocComment.Proofs.Consistency
import DocComment.Proofs.Calls
import DocComment.Proofs.ReadingCalls
import DocComment.Proofs.WellFormed
import DocComment.Proofs.Listing
import DocComment.Proofs.Growth
import DocComment.Proofs.SourceSpans
import DocComment.Proofs.Writes
import DocComment.Proofs.Additions
import DocComment.Proofs.Tables
import DocComment.Proofs.SideBySide
import DocComment.Proofs.PairedReadings
import DocComment.Proofs.LooseDrafts
import DocComment.Proofs.LooseActions
import DocComment.Proofs.LooseDocuments
import DocComment.Proofs.LooseMode
import DocComment.Proofs.Legible
import DocComment.Proofs.Rendering
import DocComment.Proofs.Items
import DocComment.Proofs.Declarations
import DocComment.Proofs.ShownItems
import DocComment.Proofs.Links
import DocComment.Proofs.BackReferences
import DocComment.Proofs.Documentation
import DocComment.Proofs.FlaggedItems
import DocComment.Proofs.Rewording
import DocComment.Proofs.TableEntries
import DocComment.Proofs.SummaryStyle
import DocComment.Proofs.Summary
import DocComment.Proofs.TextFiles
import DocComment.Proofs.JsonText
import DocComment.Proofs.JsonValues
import DocComment.Proofs.DocumentJson
import DocComment.Proofs.UnbrokenMarkup
import DocComment.Proofs.FormulasInCode
import DocComment.Proofs.ImageAttributes
import DocComment.Proofs.CodeBlocks
import DocComment.Proofs.MissedLines
import DocComment.Proofs.Indentation
import DocComment.Proofs.CommentLines
import DocComment.Proofs.ParagraphsAndLists
import DocComment.Proofs.LiterateCapture
import DocComment.Proofs.ReplayBound
import DocComment.Proofs.SettingsScopes
import DocComment.Proofs.KeptOutItems
