import LazyEngine.Main
import LazyEngine.Proofs.Startup.Progress
import LazyEngine.Proofs.Startup.Sections
import LazyEngine.Proofs.Startup.Runs
import LazyEngine.Proofs.Startup.Agreement
import LazyEngine.Proofs.Startup.Waiting
import LazyEngine.Proofs.Startup.Deliveries
import LazyEngine.Proofs.Startup.Tickets
import LazyEngine.Proofs.Startup.Tellings
import LazyEngine.Proofs.Startup.Notification
import LazyEngine.Proofs.Startup.Completion
import LazyEngine.Proofs.Startup.Rejection
import LazyEngine.Proofs.Startup.Reports
import LazyEngine.Proofs.Startup.Equivalence
import LazyEngine.Proofs.Files.Trees
import LazyEngine.Proofs.Files.Walks
import LazyEngine.Proofs.Files.Operations
import LazyEngine.Proofs.Files.Clearing
import LazyEngine.Proofs.Json.Encoding
import LazyEngine.Proofs.Prefs.Format
import LazyEngine.Proofs.Prefs.Store
import LazyEngine.Proofs.Prefs.Checks
import LazyEngine.Proofs.Provider.Lifetimes
import LazyEngine.Proofs.Provider.Debugging
import LazyEngine.Proofs.Provider.Views
import LazyEngine.Proofs.CommandLine.Layers
import LazyEngine.Proofs.Startup.Shutdown
import LazyEngine.Proofs.Provider.Singletons
import LazyEngine.Proofs.Startup.RoundTrips
import LazyEngine.Proofs.CommandLine.Counting
import LazyEngine.Proofs.Provider.Toggles
import LazyEngine.Proofs.Files.Parents
import LazyEngine.Proofs.Files.Furnishing
import LazyEngine.Proofs.CommandLine.Leavings
import LazyEngine.Proofs.CommandLine.Forecast
import LazyEngine.Proofs.Startup.Registrations
import LazyEngine.Proofs.Startup.Pumping
import LazyEngine.Proofs.Startup.Closures
import LazyEngine.Proofs.Files.Keeping
import LazyEngine.Proofs.Files.ProperTrees
import LazyEngine.Proofs.Files.Housing
import LazyEngine.Proofs.Files.Contents
import LazyEngine.Proofs.Prefs.Recall
import LazyEngine.Proofs.Text.Words
import LazyEngine.Proofs.Text.Order
import LazyEngine.Proofs.Text.Cutting
import LazyEngine.Proofs.Json.Spelling
import LazyEngine.Proofs.Json.Numbers
import LazyEngine.Proofs.Json.Grammar
import LazyEngine.Proofs.Json.Objects
import LazyEngine.Proofs.Config.SwitchFiles
import LazyEngine.Proofs.Config.Overrides
import LazyEngine.Proofs.Services.Tables
import LazyEngine.Proofs.Services.Cookies
import LazyEngine.Proofs.Services.Histories
import LazyEngine.Proofs.Services.Headers
import LazyEngine.Proofs.Services.Icons
import LazyEngine.Proofs.Text.Addresses
import LazyEngine.Proofs.Services.Contexts
import LazyEngine.Proofs.Provider.Handles
import LazyEngine.Proofs.CommandLine.Resets
