import GraphShape.Json.Pointer
import GraphShape.Main
import GraphShape.Settings.JsonReading
import GraphShape.Proofs.TypeGraph
import GraphShape.Proofs.Walking
import GraphShape.Proofs.Discovery
import GraphShape.Proofs.Agreement
import GraphShape.Proofs.Linking
import GraphShape.Proofs.Conformity
import GraphShape.Proofs.Scanning
import GraphShape.Proofs.BreadthFirst
import GraphShape.Proofs.Stopping
import GraphShape.Proofs.Fragments
import GraphShape.Proofs.Unions
import GraphShape.Proofs.NullableItems
import GraphShape.Proofs.Termination
import GraphShape.Proofs.Lockstep
import GraphShape.Proofs.Skeletons
import GraphShape.Proofs.Locality
import GraphShape.Proofs.Tokens
import GraphShape.Proofs.ReadBack
import GraphShape.Proofs.Rendering
import GraphShape.Proofs.Anatomy
import GraphShape.Proofs.Entries
import GraphShape.Proofs.ScalarMaps
import GraphShape.Proofs.SettingPaths
import GraphShape.Proofs.SettingOrder
import GraphShape.Proofs.SettingReading
import GraphShape.Proofs.Precedence
import GraphShape.Proofs.FileTrees
import GraphShape.Proofs.Runs
import GraphShape.Proofs.LogOpening
import GraphShape.Proofs.Outputs
import GraphShape.Proofs.Descriptions
import GraphShape.Proofs.Rounds
import GraphShape.Proofs.ScalarReports
import GraphShape.Proofs.KnownKeywords
import GraphShape.Proofs.Roots
import GraphShape.Proofs.Threading
import GraphShape.Proofs.FirstMentions
import GraphShape.Proofs.DocumentNames
import GraphShape.Proofs.RootVariable
import GraphShape.Proofs.Spelling
import GraphShape.Proofs.SpelledSettings
import GraphShape.Proofs.PublishedSchema
