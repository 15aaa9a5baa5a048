import CommentIndex.Activity
import CommentIndex.Anchor
import CommentIndex.Attributes
import CommentIndex.Cache
import CommentIndex.CommandLine
import CommentIndex.CommandLine.Execution
import CommentIndex.CommandLine.Options
import CommentIndex.CommandLine.Report
import CommentIndex.CommandLine.Request
import CommentIndex.Comment
import CommentIndex.Completion
import CommentIndex.Debouncer
import CommentIndex.Decimal.Reading
import CommentIndex.Decimal.Shortest
import CommentIndex.Decimal.Text
import CommentIndex.Disk
import CommentIndex.Disk.Listing
import CommentIndex.Export
import CommentIndex.FileTree
import CommentIndex.FileTree.Listing
import CommentIndex.Glob
import CommentIndex.Json
import CommentIndex.Json.Reading
import CommentIndex.Key
import CommentIndex.KeyedList
import CommentIndex.Link
import CommentIndex.Main
import CommentIndex.Matcher
import CommentIndex.Matcher.Hit
import CommentIndex.Matcher.Reading
import CommentIndex.Outline
import CommentIndex.Outline.Document
import CommentIndex.Outline.Order
import CommentIndex.Panel
import CommentIndex.Path
import CommentIndex.Path.Label
import CommentIndex.Proofs.Attributes.Fields
import CommentIndex.Proofs.Cache.Aliases
import CommentIndex.Proofs.Cache.Failures
import CommentIndex.Proofs.Cache.Holders
import CommentIndex.Proofs.Cache.Landing
import CommentIndex.Proofs.Cache.Listed
import CommentIndex.Proofs.Cache.Lookup
import CommentIndex.Proofs.Cache.OtherFiles
import CommentIndex.Proofs.Cache.Renewed
import CommentIndex.Proofs.Cache.Replacing
import CommentIndex.Proofs.Cache.Steady
import CommentIndex.Proofs.Cache.Tidy
import CommentIndex.Proofs.Cache.Traffic
import CommentIndex.Proofs.Cache.Writing
import CommentIndex.Proofs.CommandLine.Scans
import CommentIndex.Proofs.Completion.Epics
import CommentIndex.Proofs.Debouncer.Expiry
import CommentIndex.Proofs.Debouncer.Numbering
import CommentIndex.Proofs.Debouncer.Requests
import CommentIndex.Proofs.Debouncer.Steps
import CommentIndex.Proofs.Export.Groups
import CommentIndex.Proofs.Export.Records
import CommentIndex.Proofs.Glob.Alternatives
import CommentIndex.Proofs.Glob.Braces
import CommentIndex.Proofs.Glob.Expansion
import CommentIndex.Proofs.Glob.Languages
import CommentIndex.Proofs.Link.Parts
import CommentIndex.Proofs.Matcher.Blocks
import CommentIndex.Proofs.Matcher.Choice
import CommentIndex.Proofs.Matcher.Grammar
import CommentIndex.Proofs.Matcher.LineByLine
import CommentIndex.Proofs.Matcher.Lines
import CommentIndex.Proofs.Matcher.Literals
import CommentIndex.Proofs.Matcher.Order
import CommentIndex.Proofs.Matcher.Pieces
import CommentIndex.Proofs.Matcher.Preference
import CommentIndex.Proofs.Matcher.Resolution
import CommentIndex.Proofs.Outline.Blocks
import CommentIndex.Proofs.Outline.Closers
import CommentIndex.Proofs.Outline.Filtering
import CommentIndex.Proofs.Outline.Highlights
import CommentIndex.Proofs.Outline.Lineage
import CommentIndex.Proofs.Outline.Matching
import CommentIndex.Proofs.Outline.Moves
import CommentIndex.Proofs.Outline.Nesting
import CommentIndex.Proofs.Outline.Reading
import CommentIndex.Proofs.Outline.Remarks
import CommentIndex.Proofs.Outline.Rows
import CommentIndex.Proofs.Outline.Sorting
import CommentIndex.Proofs.Outline.Spans
import CommentIndex.Proofs.Outline.Spelling
import CommentIndex.Proofs.Outline.Stepping
import CommentIndex.Proofs.Outline.Telling
import CommentIndex.Proofs.Outline.Values
import CommentIndex.Proofs.Path.Order
import CommentIndex.Proofs.Registry.Choices
import CommentIndex.Proofs.Registry.Merging
import CommentIndex.Proofs.Registry.Operations
import CommentIndex.Proofs.Session.Batches
import CommentIndex.Proofs.Session.Desk
import CommentIndex.Proofs.Session.Edits
import CommentIndex.Proofs.Session.Focus
import CommentIndex.Proofs.Session.Jumps
import CommentIndex.Proofs.Session.Links
import CommentIndex.Proofs.Session.Maintained
import CommentIndex.Proofs.Session.Meeting
import CommentIndex.Proofs.Session.Prompt
import CommentIndex.Proofs.Session.Readings
import CommentIndex.Proofs.Session.Refusal
import CommentIndex.Proofs.Session.Renewal
import CommentIndex.Proofs.Session.Replacing
import CommentIndex.Proofs.Session.Retention
import CommentIndex.Proofs.Session.Sources
import CommentIndex.Proofs.Session.Steady
import CommentIndex.Proofs.Session.Stretch
import CommentIndex.Proofs.Session.Suppression
import CommentIndex.Proofs.Session.Survey
import CommentIndex.Proofs.Session.Tally
import CommentIndex.Proofs.Session.Targets
import CommentIndex.Proofs.Session.Traffic
import CommentIndex.Proofs.Session.Upheld
import CommentIndex.Proofs.Session.Upkeep
import CommentIndex.Proofs.Session.Workshop
import CommentIndex.Proofs.Settings.Assignments
import CommentIndex.Proofs.Settings.Failures
import CommentIndex.Proofs.Settings.Kinds
import CommentIndex.Proofs.Settings.Removals
import CommentIndex.Proofs.Settings.Sheets
import CommentIndex.Proofs.Settings.Spellings
import CommentIndex.Proofs.Settings.Words
import CommentIndex.Proofs.Subscriptions.Handles
import CommentIndex.Proofs.Target.Search
import CommentIndex.Proofs.Text.Capitals
import CommentIndex.Proofs.Text.CaseRuns
import CommentIndex.Proofs.Text.Caseless
import CommentIndex.Proofs.Text.Integers
import CommentIndex.Proofs.Text.LineFeeds
import CommentIndex.Proofs.Text.LineNumbers
import CommentIndex.Proofs.Text.Lines
import CommentIndex.Proofs.Text.Numerals
import CommentIndex.Proofs.Text.Stripping
import CommentIndex.Proofs.View.Counts
import CommentIndex.Proofs.View.Cursor
import CommentIndex.Proofs.View.Epics
import CommentIndex.Proofs.View.Scopes
import CommentIndex.Registry
import CommentIndex.Repository
import CommentIndex.Repository.Ignore
import CommentIndex.Repository.Listing
import CommentIndex.Session
import CommentIndex.Settings
import CommentIndex.Settings.File
import CommentIndex.Settings.Override
import CommentIndex.Settings.Reading
import CommentIndex.Subscriptions
import CommentIndex.Tag
import CommentIndex.Tag.Change
import CommentIndex.Target
import CommentIndex.Text.Blank
import CommentIndex.Text.Case
import CommentIndex.Text.CaseTable
import CommentIndex.Text.Column
import CommentIndex.Text.Digit
import CommentIndex.Text.Encoding
import CommentIndex.Text.Lines
import CommentIndex.Text.Printable
import CommentIndex.Text.Quoted
import CommentIndex.Text.Ranges
import CommentIndex.Text.Split
import CommentIndex.Text.Word
import CommentIndex.Value
import CommentIndex.View
import CommentIndex.View.Entry
import CommentIndex.Workspace
import CommentIndex.Workspace.Documents
import CommentIndex.Workspace.Refresh
import CommentIndex.Workspace.Scan
import CommentIndex.Yaml.Cursor
import CommentIndex.Yaml.Date
import CommentIndex.Yaml.Document
import CommentIndex.Yaml.Kind
import CommentIndex.Yaml.Node
import CommentIndex.Yaml.Scalar
import CommentIndex.Yaml.Token
