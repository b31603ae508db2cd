import Leasehold.Store.Session
import Leasehold.Election.Course
import Leasehold.Contest.Run
import Leasehold.Scaling.Run
import Leasehold.Settings.Check
import Leasehold.Settings.Load
import Leasehold.Rehearsal.Elections
import Leasehold.Rehearsal.Scalers
import Leasehold.Main
import Leasehold.Proofs.Contest.Turn
import Leasehold.Proofs.Contest.Tenure
import Leasehold.Proofs.Election.Coherence
import Leasehold.Proofs.Election.Reports
import Leasehold.Proofs.Store.Deed
import Leasehold.Proofs.Store.Eager
import Leasehold.Proofs.Contest.Chronicle
import Leasehold.Proofs.Contest.Stamp
import Leasehold.Proofs.Scaling.Shift
import Leasehold.Proofs.Contest.Instant
import Leasehold.Proofs.Scaling.Protection
import Leasehold.Proofs.Store.Transcript
import Leasehold.Proofs.Contest.MemberStep
import Leasehold.Proofs.Contest.Succession
import Leasehold.Proofs.Contest.Incumbency
import Leasehold.Proofs.Contest.Cadence
import Leasehold.Proofs.Scaling.Gate
import Leasehold.Proofs.Store.Essence
import Leasehold.Proofs.Contest.Closing
import Leasehold.Proofs.Store.Excerpt
import Leasehold.Proofs.Seats
import Leasehold.Proofs.Election.Renamed
import Leasehold.Proofs.Contest.Excerpt
import Leasehold.Proofs.Contest.Renumbering
import Leasehold.Proofs.Contest.Learned
import Leasehold.Proofs.Scaling.Elections
import Leasehold.Proofs.Scaling.Excerpt
import Leasehold.Proofs.Scaling.Isolation
import Leasehold.Proofs.Contest.Onward
import Leasehold.Proofs.Election.Discipline
import Leasehold.Proofs.Scaling.Events
import Leasehold.Proofs.Scaling.Career
import Leasehold.Proofs.Scaling.Recess
import Leasehold.Proofs.Scaling.Verdict
import Leasehold.Proofs.Scaling.Shutdown
import Leasehold.Proofs.Settings.Check
import Leasehold.Proofs.Store.Account
import Leasehold.Proofs.Settings.Layers
import Leasehold.Proofs.Contest.Abandonment
import Leasehold.Proofs.Scaling.Diary
import Leasehold.Proofs.Scaling.Rhythm
import Leasehold.Proofs.Election.Derived
import Leasehold.Proofs.Text.Spelling
import Leasehold.Proofs.Settings.Stopping
import Leasehold.Proofs.Election.Pace
import Leasehold.Proofs.Contest.Settling
import Leasehold.Proofs.Contest.Limit
import Leasehold.Proofs.Contest.Ghost
import Leasehold.Proofs.Scaling.Limit
import Leasehold.Proofs.Settings.Names
import Leasehold.Proofs.Settings.Functions
import Leasehold.Proofs.CommandLine
import Leasehold.Proofs.Toml.Keys
import Leasehold.Proofs.Toml.Lookup
import Leasehold.Proofs.Settings.Decoding
import Leasehold.Proofs.Rehearsal
