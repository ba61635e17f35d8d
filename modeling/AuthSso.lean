import AuthSso.Storage.Migration
import AuthSso.Storage.Planner
import AuthSso.Storage.Sequence
import AuthSso.Storage.Runs
import AuthSso.Storage.Listing
import AuthSso.Utils.Strings
import AuthSso.Validator.Schema
import AuthSso.Validator.AccessControl
import AuthSso.Validator.Log
import AuthSso.Handlers.Duo
